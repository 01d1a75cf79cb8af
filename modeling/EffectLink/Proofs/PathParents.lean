import Mathlib.Data.List.DropRight
import EffectLink.Proofs.ConfinedWrites

namespace EffectLink

/-- A list that is cut at the end either has nothing to keep or ends with the last item to keep. -/
theorem rdropWhile_cases {α : Type} (p : α → Bool) (items : List α) :
    (items.rdropWhile p = [] ∧ ∀ a ∈ items, p a = true) ∨
    ∃ before last after, items.rdropWhile p = before ++ [last] ∧ items = before ++ last :: after ∧
      p last = false ∧ ∀ a ∈ after, p a = true := by
  induction items using List.reverseRecOn with
  | nil => exact Or.inl ⟨rfl, fun _ h => absurd h List.not_mem_nil⟩
  | append_singleton items a ih =>
    by_cases ha : p a = true
    · rw [List.rdropWhile_concat_pos p items a ha]
      rcases ih with ⟨hnone, hall⟩ | ⟨before, last, after, hkept, rfl, hlast, hafter⟩
      · refine Or.inl ⟨hnone, fun b hb => ?_⟩
        rcases List.mem_append.mp hb with hb | hb
        · exact hall b hb
        · rw [List.mem_singleton.mp hb]
          exact ha
      · refine Or.inr ⟨before, last, after ++ [a], hkept, ?_, hlast, fun b hb => ?_⟩
        · rw [List.append_assoc, List.cons_append]
        · rcases List.mem_append.mp hb with hb | hb
          · exact hafter b hb
          · rw [List.mem_singleton.mp hb]
            exact ha
    · rw [List.rdropWhile_concat_neg p items a ha]
      exact Or.inr ⟨items, a, [], rfl, rfl, Bool.eq_false_iff.mpr ha,
        fun _ h => absurd h List.not_mem_nil⟩

namespace Path

theorem append_splitHead (text : List Char) : (splitHead text).1 ++ (splitHead text).2 = text := by
  unfold splitHead
  split <;> rfl

/-- What stands before the body of a path: nothing, the root, or a dot that a slash or nothing follows. -/
theorem splitHead_cases (text : List Char) :
    (splitHead text).1 = [] ∨ (splitHead text).1 = ['/'] ∨
      (splitHead text).1 = ['.'] ∧
        ((splitHead text).2 = [] ∨ ∃ rest, (splitHead text).2 = '/' :: rest) := by
  unfold splitHead
  split
  · exact Or.inr (Or.inl rfl)
  · exact Or.inr (Or.inr ⟨rfl, Or.inl rfl⟩)
  · next rest => exact Or.inr (Or.inr ⟨rfl, Or.inr ⟨rest, rfl⟩⟩)
  · exact Or.inl rfl

/-- A parent that is neither the empty path nor the root is followed by a slash and by names, and one of
them is not empty. -/
def Above (parent path : String) : Prop :=
  ∃ rest : String, path = parent ++ "/" ++ rest ∧ ∃ name ∈ names rest, name ≠ ""

theorem above_of_pieces {text rest piece : List Char} {path : String}
    (hpath : path.toList = text ++ '/' :: rest) (hmem : piece ∈ Text.pieces (· == '/') rest)
    (hpiece : piece ≠ []) : Above (String.ofList text) path := by
  refine ⟨String.ofList rest, ?_, String.ofList piece, ?_, ?_⟩
  · apply String.toList_injective
    rw [hpath]
    simp
  · rw [names, String.toList_ofList]
    exact List.mem_map_of_mem hmem
  · intro hempty
    have hnil := congrArg String.toList hempty
    rw [String.toList_ofList] at hnil
    exact hpiece hnil

/-- The first names of a path, joined after its head, are followed by a slash and the others. -/
theorem above_of_intercalate {head body last : List Char} {up more : List (List Char)} {path : String}
    (hpath : head ++ body = path.toList) (hup : up ≠ [])
    (hpieces : Text.pieces (· == '/') body = up ++ more) (hmem : last ∈ more) (hlast : last ≠ []) :
    Above (String.ofList (head ++ ['/'].intercalate up)) path := by
  obtain ⟨rest, rfl, hrest⟩ :=
    Text.eq_intercalate_append hup (List.ne_nil_of_mem hmem) hpieces
  rw [← hrest] at hmem
  refine above_of_pieces ?_ hmem hlast
  rw [← hpath, List.append_assoc]

theorem Above.length_lt {parent path : String} (h : Above parent path) :
    parent.length < path.length := by
  obtain ⟨rest, rfl, -⟩ := h
  have hslash : "/".length = 1 := rfl
  rw [String.length_append, String.length_append]
  omega

/-- A parent is the empty path, for a dot, or some of the first names with the head before them, where a
name that is not empty follows. -/
theorem parent?_eq_some {path parent : String} (h : parent? path = some parent) :
    ((splitHead path.toList).1 = ['.'] ∧ parent = "") ∨
    ∃ up more last, Text.pieces (· == '/') (splitHead path.toList).2 = up ++ more ∧ last ∈ more ∧
      last ≠ [] ∧ parent = String.ofList ((splitHead path.toList).1 ++ ['/'].intercalate up) := by
  unfold parent? at h
  generalize splitHead path.toList = halves at h
  obtain ⟨head, body⟩ := halves
  dsimp only at h ⊢
  rcases rdropWhile_cases (fun name : List Char => name == [] || name == ['.'])
    (Text.pieces (· == '/') body) with ⟨hnone, -⟩ | ⟨before, last, after, hkept, hpieces, hlast, -⟩
  · rw [show trimNames (Text.pieces (· == '/') body) = [] from hnone] at h
    dsimp only at h
    split at h
    · next hdot => exact Or.inl ⟨hdot, (Option.some.inj h).symm⟩
    · contradiction
  · rw [show trimNames (Text.pieces (· == '/') body) = before ++ [last] from hkept] at h
    split at h
    · next hnil => exact absurd hnil (List.append_ne_nil_of_right_ne_nil _ (List.cons_ne_nil _ _))
    rw [List.dropLast_concat] at h
    have hbefore : trimNames before ++ _ = before := List.rdropWhile_append_rtakeWhile
    rw [← hbefore, List.append_assoc] at hpieces
    refine Or.inr ⟨trimNames before, _, last, hpieces, ?_, ?_, (Option.some.inj h).symm⟩
    · exact List.mem_append_right _ List.mem_cons_self
    · rintro rfl
      contradiction

theorem parent?_cases {path parent : String} (h : parent? path = some parent) :
    parent.length < path.length ∧ (parent = "" ∨ parent = "/" ∨ Above parent path) := by
  have hsplit := append_splitHead path.toList
  have hhead := splitHead_cases path.toList
  have hparent := parent?_eq_some h
  have hlength : path.toList.length = path.length := String.length_toList
  generalize splitHead path.toList = halves at hsplit hhead hparent
  obtain ⟨head, body⟩ := halves
  dsimp only at hsplit hhead hparent
  rw [← hsplit, List.length_append] at hlength
  rcases hparent with ⟨rfl, rfl⟩ | ⟨up, more, last, hpieces, hmem, hlast, rfl⟩
  · rw [List.length_singleton] at hlength
    exact ⟨by change 0 < path.length; omega, Or.inl rfl⟩
  by_cases hup : up = []
  · -- the names before the last one lead nowhere, so the head is the parent
    rw [hup, List.nil_append] at hpieces
    rw [hup, List.intercalate_nil, List.append_nil]
    rw [← hpieces] at hmem
    have hbody : body ≠ [] := by
      rintro rfl
      exact hlast (List.mem_singleton.mp hmem)
    have hpos : 0 < body.length := List.length_pos_of_ne_nil hbody
    rcases hhead with rfl | rfl | ⟨rfl, hnil | ⟨rest, rfl⟩⟩
    · exact ⟨by change 0 < path.length; omega, Or.inl rfl⟩
    · rw [List.length_singleton] at hlength
      exact ⟨by change 1 < path.length; omega, Or.inr (Or.inl rfl)⟩
    · exact absurd hnil hbody
    · have hfirst : Text.pieces (· == '/') ('/' :: rest) = [] :: Text.pieces (· == '/') rest :=
        Text.pieces_append rfl [] rest
      rw [hfirst] at hmem
      have hrest := (List.mem_cons.mp hmem).resolve_left hlast
      have habove := above_of_pieces hsplit.symm hrest hlast
      exact ⟨habove.length_lt, Or.inr (Or.inr habove)⟩
  · have habove := above_of_intercalate hsplit hup hpieces hmem hlast
    exact ⟨habove.length_lt, Or.inr (Or.inr habove)⟩

/-- If only empty names follow a name of a path, then the names of a parent stand before it. -/
theorem Above.before_eq {parent path last : String} {before blanks : List String}
    (h : Above parent path) (hnames : names path = before ++ last :: blanks)
    (hblanks : ∀ name ∈ blanks, name = "") : ∃ more, before = names parent ++ more := by
  obtain ⟨rest, rfl, name, hmem, hname⟩ := h
  have htext : (parent ++ "/" ++ rest).toList = parent.toList ++ '/' :: rest.toList := by
    rw [String.toList_append, String.toList_append, List.append_assoc]
    rfl
  rw [names_eq_append htext, String.ofList_toList] at hnames
  rcases List.append_eq_append_iff.mp hnames with ⟨more, hbefore, -⟩ | ⟨between, hparent, hrest⟩
  · exact ⟨more, hbefore⟩
  · cases between with
    | nil => exact ⟨[], by rw [hparent, List.append_nil, List.append_nil]⟩
    | cons first between =>
      -- then the rest of the path is empty names
      rw [List.cons_append, List.cons.injEq] at hrest
      refine absurd (hblanks name ?_) hname
      rw [hrest.2]
      exact List.mem_append_right _ hmem

end Path

end EffectLink
