import EffectLink.Text.Blank

namespace EffectLink.Text

variable {cut : Char → Bool} {c : Char} {text piece : List Char}

theorem pieces_eq_splitOnP (cut : Char → Bool) (text : List Char) :
    pieces cut text = text.splitOnP cut := by
  induction text with
  | nil => exact List.splitOnP_nil.symm
  | cons a rest ih =>
    rw [pieces, ih, List.splitOnP_cons_eq_if_modifyHead]
    split
    · rfl
    · cases hpieces : rest.splitOnP cut with
      | nil => exact absurd hpieces (List.splitOnP_ne_nil cut rest)
      | cons piece more => rfl

theorem pieces_ne_nil (cut : Char → Bool) (text : List Char) : pieces cut text ≠ [] := by
  rw [pieces_eq_splitOnP]
  exact List.splitOnP_ne_nil cut text

theorem pieces_of_no_cut (h : ∀ c ∈ text, cut c = false) : pieces cut text = [text] := by
  rw [pieces_eq_splitOnP]
  exact List.splitOnP_eq_singleton h

theorem pieces_append (h : cut c = true) (text rest : List Char) :
    pieces cut (text ++ c :: rest) = pieces cut text ++ pieces cut rest := by
  rw [pieces_eq_splitOnP, pieces_eq_splitOnP, pieces_eq_splitOnP]
  exact List.splitOnP_append_cons text rest h

theorem not_cut_of_mem_pieces (h : piece ∈ pieces cut text) : ∀ c ∈ piece, cut c = false := by
  induction text generalizing piece with
  | nil =>
    rw [List.mem_singleton.mp h]
    exact fun c hc => absurd hc List.not_mem_nil
  | cons a rest ih =>
    unfold pieces at h
    split at h
    · rcases List.mem_cons.mp h with rfl | h
      · exact fun c hc => absurd hc List.not_mem_nil
      · exact ih h
    · next ha =>
      have ha : cut a = false := Bool.eq_false_iff.mpr ha
      split at h
      · rw [List.mem_singleton.mp h]
        exact List.forall_mem_singleton.mpr ha
      · next first more hrest =>
        rcases List.mem_cons.mp h with rfl | h
        · refine List.forall_mem_cons.mpr ⟨ha, ih ?_⟩
          rw [hrest]
          exact List.mem_cons_self
        · apply ih
          rw [hrest]
          exact List.mem_cons_of_mem _ h

/-- The end of a text without characters to cut at stays with the last piece. -/
theorem pieces_append_of_no_cut {ending : List Char} (h : ∀ c ∈ ending, cut c = false)
    (text : List Char) : ∃ before last, pieces cut (text ++ ending) = before ++ [last ++ ending] := by
  induction text with
  | nil => exact ⟨[], [], pieces_of_no_cut h⟩
  | cons c rest ih =>
    obtain ⟨before, last, hrest⟩ := ih
    rw [List.cons_append, pieces, hrest]
    split
    · exact ⟨[] :: before, last, rfl⟩
    · cases before with
      | nil => exact ⟨[], c :: last, rfl⟩
      | cons piece before => exact ⟨(c :: piece) :: before, last, rfl⟩

theorem intercalate_append {first more : List (List Char)} (hfirst : first ≠ []) (hmore : more ≠ []) :
    [c].intercalate (first ++ more) = [c].intercalate first ++ c :: [c].intercalate more := by
  induction first with
  | nil => contradiction
  | cons piece first ih =>
    cases first with
    | nil =>
      rw [List.intercalate_singleton, List.singleton_append, List.intercalate_cons_of_ne_nil hmore,
        List.append_assoc, List.singleton_append]
    | cons next first =>
      have hne : next :: first ≠ [] := List.cons_ne_nil _ _
      have hall : next :: first ++ more ≠ [] := List.append_ne_nil_of_left_ne_nil hne more
      rw [List.cons_append, List.intercalate_cons_of_ne_nil hall, ih hne,
        List.intercalate_cons_of_ne_nil hne]
      simp only [List.append_assoc]

/-- The first pieces of a text, joined again, are followed by the text of the others. -/
theorem eq_intercalate_append {first more : List (List Char)} (hfirst : first ≠ []) (hmore : more ≠ [])
    (h : pieces (· == c) text = first ++ more) :
    ∃ rest, text = [c].intercalate first ++ c :: rest ∧ pieces (· == c) rest = more := by
  have hfree : ∀ piece ∈ more, c ∉ piece := by
    intro piece hpiece hc
    have hmem : piece ∈ pieces (· == c) text := h ▸ List.mem_append_right first hpiece
    exact beq_eq_false_iff_ne.mp (not_cut_of_mem_pieces hmem c hc) rfl
  refine ⟨[c].intercalate more, ?_, ?_⟩
  · rw [← intercalate_append hfirst hmore, ← h, pieces_eq_splitOnP]
    exact (List.intercalate_splitOn c).symm
  · rw [pieces_eq_splitOnP]
    exact List.splitOn_intercalate c hfree hmore

theorem eq_of_splitFirst {mark : Char} {before after : List Char}
    (h : splitFirst mark text = some (before, after)) : text = before ++ mark :: after := by
  induction text generalizing before with
  | nil => contradiction
  | cons c rest ih =>
    unfold splitFirst at h
    split at h
    · next hc =>
      cases h
      rw [hc]
      rfl
    · obtain ⟨halves, hhalves, heq⟩ := Option.map_eq_some_iff.mp h
      cases heq
      rw [ih hhalves]
      rfl

theorem splitFirst_append {mark : Char} {before : List Char} (h : mark ∉ before)
    (after : List Char) : splitFirst mark (before ++ mark :: after) = some (before, after) := by
  induction before with
  | nil => exact if_pos rfl
  | cons c before ih =>
    rw [List.mem_cons, not_or] at h
    rw [List.cons_append, splitFirst, if_neg (Ne.symm h.1), ih h.2]
    rfl

theorem eq_of_splitLast {mark : Char} {before after : List Char}
    (h : splitLast mark text = some (before, after)) : text = before ++ mark :: after := by
  induction text generalizing before with
  | nil => contradiction
  | cons c rest ih =>
    unfold splitLast at h
    split at h
    · next halves hhalves =>
      cases h
      rw [ih hhalves]
      rfl
    · split at h
      · next hc =>
        cases h
        rw [hc]
        rfl
      · contradiction

theorem splitLast_of_no_mark {mark : Char} (h : mark ∉ text) : splitLast mark text = none := by
  induction text with
  | nil => rfl
  | cons c rest ih =>
    rw [List.mem_cons, not_or] at h
    rw [splitLast, ih h.2]
    exact if_neg (Ne.symm h.1)

theorem splitLast_append {mark : Char} {after : List Char} (h : mark ∉ after)
    (before : List Char) : splitLast mark (before ++ mark :: after) = some (before, after) := by
  induction before with
  | nil =>
    rw [List.nil_append, splitLast, splitLast_of_no_mark h]
    exact if_pos rfl
  | cons c before ih =>
    rw [List.cons_append, splitLast, ih]

theorem isDigit_of_mem_number {n : Nat} (h : c ∈ (toString n).toList) : c.isDigit = true := by
  apply Nat.isDigit_of_mem_toDigits (b := 10) (n := n) (by decide) (by decide)
  simpa using h

end EffectLink.Text
