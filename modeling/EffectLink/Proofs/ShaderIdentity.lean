import EffectLink.Program.Resolution
import Mathlib.Data.List.Infix

/-! Identities are written without quoting. They can be taken apart again if every name ends where
the separator after it begins for the first time, as identifiers do. -/

namespace EffectLink

/-- In a text where the separator follows the name, nothing before it reads as the separator. -/
def Delimits (separator name : String) : Prop :=
  ¬separator.toList <:+: name.toList ++ separator.toList.dropLast

instance (separator name : String) : Decidable (Delimits separator name) :=
  inferInstanceAs (Decidable (¬_ <:+: _))

/-- A character that can stand in a name without being mistaken for punctuation of an identity. -/
def isPlainChar (c : Char) : Bool := !(['(', ')', ',', '=', ' '].contains c)

/-- A name without the punctuation of identities, as every identifier is. -/
def PlainName (name : String) : Prop := ∀ c ∈ name.toList, isPlainChar c = true

instance : DecidablePred PlainName := fun name => List.decidableBAll (isPlainChar · = true) name.toList

theorem PlainName.delimits {name separator : String} (h : PlainName name) (hne : separator.toList ≠ [])
    (hseparator : separator.toList.any isPlainChar = false) : Delimits separator name := by
  intro hinfix
  -- compare what is left of both sides without the plain characters
  have hsub := hinfix.sublist.filter (!isPlainChar ·)
  have hname : name.toList.filter (!isPlainChar ·) = [] := by
    apply List.filter_eq_nil_iff.mpr
    intro c hc
    simp [h c hc]
  have hself : separator.toList.filter (!isPlainChar ·) = separator.toList := by
    apply List.filter_eq_self.mpr
    intro c hc
    simp [List.any_eq_false.mp hseparator c hc]
  rw [List.filter_append, hname, hself, List.nil_append] at hsub
  have hle := (hsub.trans List.filter_sublist).length_le
  have hpos := List.length_pos_iff.mpr hne
  rw [List.length_dropLast] at hle
  omega

namespace ShaderIdentity

/-- A name that goes on where another one has ended would contain the separator. -/
theorem eq_nil_of_delimits {separator : String} {x m after after' : List Char}
    (h : ¬separator.toList <:+: (x ++ m) ++ separator.toList.dropLast)
    (heq : separator.toList ++ after = m ++ (separator.toList ++ after')) : m = [] := by
  by_contra hm
  have hfront : separator.toList <+: m ++ (separator.toList ++ after') := by
    rw [← heq]
    exact List.prefix_append _ _
  have hrest : m ++ separator.toList.dropLast <+: m ++ (separator.toList ++ after') :=
    (List.prefix_append_right_inj m).mpr ((List.dropLast_prefix _).trans (List.prefix_append _ _))
  have hlength : separator.toList.length ≤ (m ++ separator.toList.dropLast).length := by
    have hpos := List.length_pos_iff.mpr hm
    rw [List.length_append, List.length_dropLast]
    omega
  have hinside := List.prefix_of_prefix_length_le hfront hrest hlength
  apply h
  rw [List.append_assoc]
  exact hinside.isInfix.trans (List.suffix_append _ _).isInfix

/-- A name ends where the separator after it begins for the first time. -/
theorem append_injective {separator name name' : String} {after after' : List Char}
    (h : Delimits separator name) (h' : Delimits separator name')
    (heq : name.toList ++ (separator.toList ++ after) = name'.toList ++ (separator.toList ++ after')) :
    name = name' ∧ after = after' := by
  have hname : name.toList = name'.toList := by
    rcases List.append_eq_append_iff.mp heq with ⟨m, hm, hrest⟩ | ⟨m, hm, hrest⟩
    · unfold Delimits at h'
      rw [hm] at h'
      rw [hm, eq_nil_of_delimits h' hrest, List.append_nil]
    · unfold Delimits at h
      rw [hm] at h
      rw [hm, eq_nil_of_delimits h hrest, List.append_nil]
  rw [hname] at heq
  exact ⟨String.toList_inj.mp hname, List.append_cancel_left (List.append_cancel_left heq)⟩

def ClearBinding (b : String × String) : Prop := Delimits " = " b.1 ∧ Delimits ", " b.2

/-- One binding and the text after it. -/
def bindingText (b : String × String) (after : List Char) : List Char :=
  b.1.toList ++ (" = ".toList ++ (b.2.toList ++ after))

/-- The bindings after the first, with the closing parenthesis. -/
def furtherText : List (String × String) → List Char
  | [] => [')']
  | b :: rest => ", ".toList ++ bindingText b (furtherText rest)

/-- The last value is not followed by another binding. -/
theorem append_close_ne {value : String} {text after : List Char} (h : Delimits ", " value) :
    value.toList ++ [')'] ≠ text ++ (", ".toList ++ after) := by
  intro heq
  have hafter : after ≠ [] := by
    intro hnil
    have hlast := congrArg List.getLast? heq
    rw [hnil] at hlast
    simp at hlast
  -- without the closing parenthesis the separator is still there
  have hvalue := congrArg List.dropLast heq
  rw [List.dropLast_concat, ← List.append_assoc, List.dropLast_append_of_ne_nil hafter] at hvalue
  apply h
  rw [hvalue]
  exact ⟨text, after.dropLast ++ [','], by simp⟩

theorem furtherText_injective {value value' : String} {rest rest' : List (String × String)}
    (hvalue : Delimits ", " value) (hvalue' : Delimits ", " value')
    (hrest : ∀ b ∈ rest, ClearBinding b) (hrest' : ∀ b ∈ rest', ClearBinding b)
    (h : value.toList ++ furtherText rest = value'.toList ++ furtherText rest') :
    value = value' ∧ rest = rest' := by
  induction rest generalizing value value' rest' with
  | nil =>
    cases rest' with
    | nil =>
      have hlist : value.toList = value'.toList := List.append_cancel_right h
      exact ⟨String.toList_inj.mp hlist, rfl⟩
    | cons b' rest' => exact absurd h (append_close_ne hvalue)
  | cons b rest ih =>
    cases rest' with
    | nil => exact absurd h.symm (append_close_ne hvalue')
    | cons b' rest' =>
      obtain ⟨hb, hrest⟩ := List.forall_mem_cons.mp hrest
      obtain ⟨hb', hrest'⟩ := List.forall_mem_cons.mp hrest'
      obtain ⟨heq, htext⟩ := append_injective hvalue hvalue' h
      obtain ⟨hkey, htext⟩ := append_injective hb.1 hb'.1 htext
      obtain ⟨hbound, hlater⟩ := ih hb.2 hb'.2 hrest hrest' htext
      exact ⟨heq, by rw [Prod.ext hkey hbound, hlater]⟩

/-- What follows the function's name. -/
def bindingsText : List (String × String) → List Char
  | [] => []
  | b :: rest => "(".toList ++ bindingText b (furtherText rest)

theorem toList_intercalate_bindings (b : String × String) (rest : List (String × String)) :
    (", ".intercalate ((b :: rest).map fun b => b.1 ++ " = " ++ b.2)).toList ++ [')'] =
      bindingText b (furtherText rest) := by
  induction rest generalizing b with
  | nil => simp [bindingText, furtherText]
  | cons c rest ih =>
    have hc := ih c
    rw [List.map_cons] at hc
    rw [List.map_cons, List.map_cons, String.intercalate_cons_cons, String.toList_append,
      List.append_assoc, hc]
    simp [bindingText, furtherText]

theorem toList_shaderIdentity (function : String) (bindings : KeyMap String) :
    (shaderIdentity function bindings).toList =
      function.toList ++ bindingsText bindings.entries := by
  unfold shaderIdentity KeyMap.isEmpty
  cases hentries : bindings.entries with
  | nil => simp [bindingsText]
  | cons b rest =>
    have htext := toList_intercalate_bindings b rest
    simp only [List.isEmpty_cons, Bool.false_eq_true, if_false, String.toList_append,
      List.append_assoc, bindingsText, ← htext]
    rfl

/-- A function's name without an opening parenthesis is not followed by one inside of itself. -/
theorem append_open_ne {function : String} {text after : List Char} (h : Delimits "(" function) :
    function.toList ≠ text ++ ("(".toList ++ after) := by
  intro heq
  apply h
  rw [heq]
  exact ⟨text, after, by simp⟩

theorem bindingsText_injective {f g : String} {entries entries' : List (String × String)}
    (hf : Delimits "(" f) (hg : Delimits "(" g) (he : ∀ b ∈ entries, ClearBinding b)
    (he' : ∀ b ∈ entries', ClearBinding b)
    (h : f.toList ++ bindingsText entries = g.toList ++ bindingsText entries') :
    f = g ∧ entries = entries' := by
  cases entries with
  | nil =>
    rw [bindingsText, List.append_nil] at h
    cases entries' with
    | nil =>
      rw [bindingsText, List.append_nil] at h
      exact ⟨String.toList_inj.mp h, rfl⟩
    | cons b' rest' => exact absurd h (append_open_ne hf)
  | cons b rest =>
    cases entries' with
    | nil =>
      rw [bindingsText, bindingsText, List.append_nil] at h
      exact absurd h.symm (append_open_ne hg)
    | cons b' rest' =>
      obtain ⟨hb, hrest⟩ := List.forall_mem_cons.mp he
      obtain ⟨hb', hrest'⟩ := List.forall_mem_cons.mp he'
      obtain ⟨heq, htext⟩ := append_injective hf hg h
      obtain ⟨hkey, htext⟩ := append_injective hb.1 hb'.1 htext
      obtain ⟨hbound, hlater⟩ := furtherText_injective hb.2 hb'.2 hrest hrest' htext
      exact ⟨heq, by rw [Prod.ext hkey hbound, hlater]⟩

/-- Names that can be told from the punctuation around them. -/
structure Clear (function : String) (bindings : KeyMap String) : Prop where
  function : Delimits "(" function
  bindings : ∀ b ∈ bindings.entries, ClearBinding b

/-- Between clear names an identity tells the function and the bindings. -/
theorem Clear.eq_of_identity_eq {f g : String} {a b : KeyMap String} (ha : Clear f a) (hb : Clear g b)
    (h : shaderIdentity f a = shaderIdentity g b) : f = g ∧ a = b := by
  have htext := congrArg String.toList h
  rw [toList_shaderIdentity, toList_shaderIdentity] at htext
  obtain ⟨hname, hentries⟩ :=
    bindingsText_injective ha.function hb.function ha.bindings hb.bindings htext
  exact ⟨hname, KeyMap.ext_entries hentries⟩

theorem clear_of_plain {f : String} {a : KeyMap String} (hf : PlainName f)
    (ha : ∀ e ∈ a.entries, PlainName e.1 ∧ PlainName e.2) : Clear f a := by
  refine ⟨hf.delimits (by decide) (by decide), ?_⟩
  intro e he
  obtain ⟨hkey, hvalue⟩ := ha e he
  exact ⟨hkey.delimits (by decide) (by decide), hvalue.delimits (by decide) (by decide)⟩

end ShaderIdentity

open ShaderIdentity in
/-- Between plain names an identity tells the function and the bindings. -/
theorem shaderIdentity_injective {f g : String} {a b : KeyMap String} (hf : PlainName f)
    (hg : PlainName g) (ha : ∀ e ∈ a.entries, PlainName e.1 ∧ PlainName e.2)
    (hb : ∀ e ∈ b.entries, PlainName e.1 ∧ PlainName e.2)
    (h : shaderIdentity f a = shaderIdentity g b) : f = g ∧ a = b :=
  (clear_of_plain hf ha).eq_of_identity_eq (clear_of_plain hg hb) h

end EffectLink
