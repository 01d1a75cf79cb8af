import EffectLink.Proofs.ShaderIdentity

namespace EffectLink

namespace ShaderIdentity

/-- A text with a separator is split where the separator begins for the first time. -/
theorem exists_delimits {separator : String} {text : List Char} (hne : separator.toList ≠ [])
    (h : separator.toList <:+: text) :
    ∃ name after, Delimits separator name ∧ text = name.toList ++ (separator.toList ++ after) := by
  obtain ⟨front, after, htext⟩ := h
  induction hlength : front.length using Nat.strong_induction_on generalizing front after with
  | _ n ih =>
    by_cases hfirst : Delimits separator (String.ofList front)
    · refine ⟨String.ofList front, after, hfirst, ?_⟩
      rw [String.toList_ofList, ← htext, List.append_assoc]
    · -- an earlier separator ends before the last character of this one
      unfold Delimits at hfirst
      rw [not_not, String.toList_ofList] at hfirst
      obtain ⟨front', after', hearlier⟩ := hfirst
      have hshorter : front'.length < n := by
        have hlengths := congrArg List.length hearlier
        have hpos := List.length_pos_iff.mpr hne
        simp only [List.length_append, List.length_dropLast] at hlengths
        omega
      refine ih _ hshorter front' (after' ++ ([separator.toList.getLast hne] ++ after)) ?_ rfl
      calc front' ++ separator.toList ++ (after' ++ ([separator.toList.getLast hne] ++ after))
          = (front' ++ separator.toList ++ after') ++ ([separator.toList.getLast hne] ++ after) := by
            rw [List.append_assoc (front' ++ separator.toList)]
        _ = front ++ (separator.toList.dropLast ++ [separator.toList.getLast hne]) ++ after := by
            rw [hearlier]
            simp only [List.append_assoc]
        _ = text := by
            rw [List.dropLast_concat_getLast, htext]

/-- A name that contains the separator after it can be cut at its first one. What is left of the name
then belongs to the text after the separator. -/
theorem exists_cut {separator name : String} (hne : separator.toList ≠ [])
    (h : ¬Delimits separator name) :
    ∃ cut beginning : String, Delimits separator cut ∧ beginning ≠ "" ∧ ∀ rest : List Char,
      name.toList ++ (separator.toList ++ rest) =
        cut.toList ++ (separator.toList ++ (beginning.toList ++ rest)) := by
  unfold Delimits at h
  rw [not_not] at h
  obtain ⟨cut, after, hcut, hsplit⟩ := exists_delimits hne h
  have hbeginning : (String.ofList (after ++ [separator.toList.getLast hne])).toList =
      after ++ [separator.toList.getLast hne] := String.toList_ofList
  refine ⟨cut, String.ofList (after ++ [separator.toList.getLast hne]), hcut, ?_, ?_⟩
  · intro hempty
    rw [hempty] at hbeginning
    simp at hbeginning
  · intro rest
    calc name.toList ++ (separator.toList ++ rest)
        = name.toList ++ ((separator.toList.dropLast ++ [separator.toList.getLast hne]) ++ rest) := by
          rw [List.dropLast_concat_getLast]
      _ = (name.toList ++ separator.toList.dropLast) ++ ([separator.toList.getLast hne] ++ rest) := by
          simp only [List.append_assoc]
      _ = cut.toList ++ (separator.toList ++ ((after ++ [separator.toList.getLast hne]) ++ rest)) := by
          rw [hsplit]
          simp only [List.append_assoc]
      _ = _ := by
          rw [hbeginning]

/-- The map with one binding. -/
def single (key value : String) : KeyMap String := ⟨[(key, value)], List.pairwise_singleton _ _⟩

theorem toList_single (f key value : String) :
    (shaderIdentity f (single key value)).toList =
      f.toList ++ ("(".toList ++ (key.toList ++ (" = ".toList ++ (value.toList ++ [')'])))) :=
  toList_shaderIdentity f (single key value)

/-- What is left of a function's name can be read as the beginning of the first key. -/
theorem cut_function {f : String} (h : ¬Delimits "(" f) :
    ∃ cut beginning, Delimits "(" cut ∧ ∀ key value,
      shaderIdentity f (single key value) = shaderIdentity cut (single (beginning ++ key) value) := by
  obtain ⟨cut, beginning, hcut, -, htext⟩ := exists_cut (by decide) h
  refine ⟨cut, beginning, hcut, ?_⟩
  intro key value
  apply String.toList_inj.mp
  rw [toList_single, toList_single, htext, String.toList_append]
  simp only [List.append_assoc]

/-- What is left of a key can be read as the beginning of its value. -/
theorem cut_key {key : String} (h : ¬Delimits " = " key) :
    ∃ cut beginning, Delimits " = " cut ∧ ∀ f value,
      shaderIdentity f (single key value) = shaderIdentity f (single cut (beginning ++ value)) := by
  obtain ⟨cut, beginning, hcut, -, htext⟩ := exists_cut (by decide) h
  refine ⟨cut, beginning, hcut, ?_⟩
  intro f value
  apply String.toList_inj.mp
  rw [toList_single, toList_single, htext, String.toList_append]
  simp only [List.append_assoc]

/-- The map with a binding of the empty key and a further one. -/
def couple (value key value' : String) (hkey : key ≠ "") : KeyMap String where
  entries := [("", value), (key, value')]
  ordered := by
    have hlt : "" < key := by
      change [] < key.toList
      cases htext : key.toList with
      | nil => exact absurd (String.toList_eq_nil_iff.mp htext) hkey
      | cons c rest => exact List.nil_lt_cons c rest
    simpa using hlt

theorem toList_couple (f value key value' : String) (hkey : key ≠ "") :
    (shaderIdentity f (couple value key value' hkey)).toList =
      f.toList ++ ("(".toList ++ (" = ".toList ++ (value.toList ++
        (", ".toList ++ (key.toList ++ (" = ".toList ++ (value'.toList ++ [')']))))))) :=
  toList_shaderIdentity f (couple value key value' hkey)

/-- What is left of a value can be read as the beginning of the next key. -/
theorem cut_value {value : String} (h : ¬Delimits ", " value) :
    ∃ cut beginning, Delimits ", " cut ∧ ∀ f key value' hkey, ∃ hkey',
      shaderIdentity f (couple value key value' hkey) =
        shaderIdentity f (couple cut (beginning ++ key) value' hkey') := by
  obtain ⟨cut, beginning, hcut, hbeginning, htext⟩ := exists_cut (by decide) h
  refine ⟨cut, beginning, hcut, ?_⟩
  intro f key value' hkey
  have hkey' : beginning ++ key ≠ "" := by
    intro hempty
    exact hbeginning (String.append_eq_empty_iff.mp hempty).1
  refine ⟨hkey', ?_⟩
  apply String.toList_inj.mp
  rw [toList_couple, toList_couple, htext, String.toList_append]
  simp only [List.append_assoc]

theorem shaderIdentity_empty (f : String) : shaderIdentity f ∅ = f := rfl

/-- The name of a function that reads as an identity with bindings. -/
def ReadsAsBound (f : String) : Prop := ∃ g key value, f = g ++ "(" ++ key ++ " = " ++ value ++ ")"

theorem exists_furtherText (rest : List (String × String)) :
    ∃ text, furtherText rest = text ++ [')'] := by
  induction rest with
  | nil => exact ⟨[], rfl⟩
  | cons b rest ih =>
    obtain ⟨text, htext⟩ := ih
    refine ⟨", ".toList ++ (b.1.toList ++ (" = ".toList ++ (b.2.toList ++ text))), ?_⟩
    unfold furtherText bindingText
    rw [htext]
    simp only [List.append_assoc]

theorem shaderIdentity_single (f key value : String) :
    shaderIdentity f (single key value) = f ++ "(" ++ key ++ " = " ++ value ++ ")" := by
  apply String.toList_inj.mp
  rw [toList_single]
  simp only [String.toList_append, List.append_assoc]
  rfl

/-- Several bindings read as one binding with a long value. -/
theorem readsAsBound_shaderIdentity {f : String} {a : KeyMap String} (h : a ≠ ∅) :
    ReadsAsBound (shaderIdentity f a) := by
  cases hentries : a.entries with
  | nil => exact absurd (KeyMap.ext_entries hentries) h
  | cons b rest =>
    obtain ⟨text, htext⟩ := exists_furtherText rest
    refine ⟨f, b.1, b.2 ++ String.ofList text, ?_⟩
    rw [← shaderIdentity_single]
    apply String.toList_inj.mp
    have hvalue : (b.2 ++ String.ofList text).toList = b.2.toList ++ text := by
      rw [String.toList_append, String.toList_ofList]
    rw [toList_shaderIdentity, toList_single, hentries, bindingsText, bindingText, htext, hvalue]
    simp only [List.append_assoc]

/-- A shader shares its identity with no other one if it has no bindings and its name does not read as if
it had. -/
theorem identity_unique_iff (f : String) (a : KeyMap String) :
    (∀ g b, shaderIdentity g b = shaderIdentity f a → g = f ∧ b = a) ↔ a = ∅ ∧ ¬ReadsAsBound f := by
  constructor
  · intro h
    have hempty : a = ∅ := (h (shaderIdentity f a) ∅ (shaderIdentity_empty _)).2.symm
    refine ⟨hempty, ?_⟩
    intro hbound
    obtain ⟨g, key, value, hf⟩ := hbound
    have hsame : shaderIdentity g (single key value) = shaderIdentity f a := by
      rw [hempty, shaderIdentity_empty, hf, shaderIdentity_single]
    have hsingle := (h g (single key value) hsame).2
    rw [hempty] at hsingle
    exact absurd (congrArg KeyMap.entries hsingle) (List.cons_ne_nil _ _)
  · intro h g b hsame
    obtain ⟨hempty, hbound⟩ := h
    subst hempty
    rw [shaderIdentity_empty] at hsame
    have hb : b = ∅ := by
      by_contra hb
      apply hbound
      rw [← hsame]
      exact readsAsBound_shaderIdentity hb
    rw [hb, shaderIdentity_empty] at hsame
    exact ⟨hsame, hb⟩

/-- Shaders with clear names share no identity. No part of that can be left out: a function's name, a key
or a value that is not clear gives a shader the identity of another one with a clear name in its place. In
all texts, only functions without bindings whose names do not read as if they had any keep their identities
to themselves. -/
theorem shaderIdentity_collisions (f : String) (a : KeyMap String) :
    (Clear f a → ∀ g b, Clear g b → shaderIdentity f a = shaderIdentity g b → f = g ∧ a = b) ∧
    (¬Delimits "(" f → ∃ cut beginning, Delimits "(" cut ∧ ∀ key value,
      shaderIdentity f (single key value) = shaderIdentity cut (single (beginning ++ key) value)) ∧
    (∀ key, ¬Delimits " = " key → ∃ cut beginning, Delimits " = " cut ∧ ∀ g value,
      shaderIdentity g (single key value) = shaderIdentity g (single cut (beginning ++ value))) ∧
    (∀ value, ¬Delimits ", " value → ∃ cut beginning, Delimits ", " cut ∧ ∀ g key value' hkey, ∃ hkey',
      shaderIdentity g (couple value key value' hkey) =
        shaderIdentity g (couple cut (beginning ++ key) value' hkey')) ∧
    ((∀ g b, shaderIdentity g b = shaderIdentity f a → g = f ∧ b = a) ↔ a = ∅ ∧ ¬ReadsAsBound f) := by
  refine ⟨?_, ?_, ?_, ?_, identity_unique_iff f a⟩
  · intro ha g b hb h
    exact ha.eq_of_identity_eq hb h
  · intro h
    exact cut_function h
  · intro key h
    exact cut_key h
  · intro value h
    exact cut_value h

/-- Commas, equality signs and closing parentheses do no harm by themselves. -/
theorem shaderIdentity_collisions_hearth :
    Clear "hearth)=" (single "a, b" "c = d)") ∧ Clear "hearth)=" (single "a" "b = c = d)") ∧
      shaderIdentity "hearth)=" (single "a, b" "c = d)") ≠
        shaderIdentity "hearth)=" (single "a" "b = c = d)") := by
  have hcomma : Clear "hearth)=" (single "a, b" "c = d)") :=
    ⟨by decide, List.forall_mem_singleton.mpr ⟨by decide, by decide⟩⟩
  have hequality : Clear "hearth)=" (single "a" "b = c = d)") :=
    ⟨by decide, List.forall_mem_singleton.mpr ⟨by decide, by decide⟩⟩
  refine ⟨hcomma, hequality, ?_⟩
  intro h
  have hsame := ((shaderIdentity_collisions _ _).1 hcomma _ _ hequality h).2
  exact absurd (congrArg KeyMap.entries hsame) (by decide)

/-- A shader with a binding and a function with the same text for its name. -/
theorem shaderIdentity_not_injective :
    ¬∀ (f g : String) (a b : KeyMap String),
      shaderIdentity f a = shaderIdentity g b → f = g ∧ a = b := by
  intro h
  have hsame : shaderIdentity "flame" (single "tint" "warm") = shaderIdentity "flame(tint = warm)" ∅ := by
    decide
  exact absurd (h _ _ _ _ hsame).1 (by decide)

end ShaderIdentity

end EffectLink
