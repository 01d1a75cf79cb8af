import Mathlib.Data.List.Forall2
import EffectLink.Diagnostic.Terminal
import EffectLink.Proofs.TextPieces

namespace EffectLink

namespace Text

/-- Deletes every escape sequence: an escape character and a bracket, up to the next `m`. -/
def withoutSequences : List Char → List Char
  | '\x1b' :: '[' :: rest =>
    match _h : splitFirst 'm' rest with
    | some (_, after) => withoutSequences after
    -- an open sequence is none, and no other can end behind it
    | none => '\x1b' :: '[' :: rest
  | c :: rest => c :: withoutSequences rest
  | [] => []
termination_by text => text.length
decreasing_by
  · have hrest := congrArg List.length (eq_of_splitFirst _h)
    simp only [List.length_append, List.length_cons] at hrest ⊢
    omega
  · simp

theorem withoutSequences_nil : withoutSequences [] = [] := by
  rw [withoutSequences]

theorem withoutSequences_cons {c : Char} (h : c ≠ '\x1b') (rest : List Char) :
    withoutSequences (c :: rest) = c :: withoutSequences rest := by
  rw [withoutSequences]
  intro _ hc
  exact absurd hc h

theorem withoutSequences_append {plain : List Char} (h : '\x1b' ∉ plain) (rest : List Char) :
    withoutSequences (plain ++ rest) = plain ++ withoutSequences rest := by
  induction plain with
  | nil => rfl
  | cons c plain ih =>
    rw [List.mem_cons, not_or] at h
    rw [List.cons_append, withoutSequences_cons (Ne.symm h.1), ih h.2, List.cons_append]

theorem withoutSequences_sequence {body : List Char} (h : 'm' ∉ body) (rest : List Char) :
    withoutSequences ('\x1b' :: '[' :: (body ++ 'm' :: rest)) = withoutSequences rest := by
  rw [withoutSequences]
  split
  · next first after hsplit =>
    rw [splitFirst_append h] at hsplit
    cases hsplit
    rfl
  · next hsplit =>
    rw [splitFirst_append h] at hsplit
    contradiction

/-- A text that turns into another one without its escape sequences, whatever follows it. -/
def Unstyles (styled plain : String) : Prop :=
  ∀ rest, withoutSequences (styled.toList ++ rest) = plain.toList ++ withoutSequences rest

theorem unstyles_of_no_escape {text : String} (h : '\x1b' ∉ text.toList) : Unstyles text text :=
  fun rest => withoutSequences_append h rest

theorem Unstyles.append {styled plain styled' plain' : String} (h : Unstyles styled plain)
    (h' : Unstyles styled' plain') : Unstyles (styled ++ styled') (plain ++ plain') := by
  intro rest
  rw [String.toList_append, String.toList_append, List.append_assoc, h, h', List.append_assoc]

theorem Unstyles.join {styled plain : List String} (h : List.Forall₂ Unstyles styled plain) :
    Unstyles (String.join styled) (String.join plain) := by
  induction h with
  | nil => exact unstyles_of_no_escape (by simp)
  | cons hfirst _ ih =>
    rw [String.join_cons, String.join_cons]
    exact hfirst.append ih

theorem Unstyles.eq {styled plain : String} (h : Unstyles styled plain) :
    withoutSequences styled.toList = plain.toList := by
  have hend := h []
  rwa [withoutSequences_nil, List.append_nil, List.append_nil] at hend

theorem intercalate_cons (sep line : String) (lines : List String) :
    sep.intercalate (line :: lines) = line ++ String.join (lines.map (sep ++ ·)) := by
  induction lines generalizing line with
  | nil => simp
  | cons next lines ih =>
    rw [String.intercalate_cons_cons, ih, List.map_cons, String.join_cons]
    simp only [String.append_assoc]

/-- Lines that are closed are lines that are joined, and one more line feed. -/
theorem join_closed {lines : List String} (h : lines ≠ []) :
    String.join (lines.map (· ++ "\n")) = "\n".intercalate lines ++ "\n" := by
  induction lines with
  | nil => contradiction
  | cons line lines ih =>
    cases lines with
    | nil => simp
    | cons next lines =>
      rw [List.map_cons, String.join_cons, ih (List.cons_ne_nil _ _), String.intercalate_cons_cons]
      simp only [String.append_assoc]

end Text

/-- Every style is turned on by one escape sequence. -/
theorem Style.exists_escape (style : Style) :
    ∃ body : List Char, 'm' ∉ body ∧ style.escape.toList = '\x1b' :: '[' :: (body ++ ['m']) := by
  cases style with
  | error => exact ⟨"1;31".toList, by decide, by decide⟩
  | warning => exact ⟨"1;33".toList, by decide, by decide⟩
  | note => exact ⟨"1;36".toList, by decide, by decide⟩
  | code => exact ⟨"1".toList, by decide, by decide⟩
  | path => exact ⟨"1;34".toList, by decide, by decide⟩

theorem Style.unstyles_paint (style : Style) {text : String} (h : '\x1b' ∉ text.toList) :
    Text.Unstyles (style.paint true text) (style.paint false text) := by
  obtain ⟨body, hbody, hescape⟩ := style.exists_escape
  have hon : Text.Unstyles style.escape "" := by
    intro rest
    rw [hescape]
    simpa using Text.withoutSequences_sequence hbody rest
  have hoff : Text.Unstyles "\x1b[0m" "" := by
    intro rest
    exact Text.withoutSequences_sequence (show 'm' ∉ ['0'] by decide) rest
  have hpainted := (hon.append (Text.unstyles_of_no_escape h)).append hoff
  simpa [paint] using hpainted

theorem Severity.escape_not_mem_text (severity : Severity) : '\x1b' ∉ severity.text.toList := by
  cases severity <;> decide

theorem Code.escape_not_mem_text (code : Code) : '\x1b' ∉ code.text.toList := by
  cases code <;> decide

theorem Location.escape_not_mem_text {l : Location} (h : '\x1b' ∉ l.file.toList) :
    '\x1b' ∉ l.text.toList := by
  have hline : '\x1b' ∉ (toString l.line).toList := by
    intro hmem
    exact absurd (Text.isDigit_of_mem_number hmem) (by decide)
  change '\x1b' ∉ (l.file ++ ":" ++ toString l.line).toList
  simp only [String.toList_append, List.mem_append, not_or]
  exact ⟨⟨h, by decide⟩, hline⟩

namespace Diagnostic

/-- The lines of a diagnostic, without the line feeds. -/
def lines (styled : Bool) (d : Diagnostic) : List String :=
  (Style.paint styled (.ofSeverity d.severity) d.severity.text ++ " " ++
      Style.paint styled .code ("[" ++ d.code.text ++ "]") ++ ": " ++ d.message) ::
    ((d.location.toList.map fun l => "  --> " ++ Style.paint styled .path l.text) ++
      (d.context.toList.map fun c => "  = in " ++ c) ++
      d.notes.map fun n => "  = " ++ Style.paint styled .code "note" ++ ": " ++ n)

/-- A block closes every line. -/
theorem block_eq (styled : Bool) (d : Diagnostic) :
    d.block styled = String.join ((d.lines styled).map (· ++ "\n")) ++ "\n" := by
  have hstring (s : String) : toString s = s := rfl
  unfold block lines
  simp [hstring, String.join_append, String.append_assoc, Function.comp_def]

/-- The text has line feeds between the lines. -/
theorem text_eq (d : Diagnostic) : d.text = "\n".intercalate (d.lines false) := by
  have hstring (s : String) : toString s = s := rfl
  -- the literals are cut where `lines` has two pieces
  have hcut {whole first rest : String} (h : whole = first ++ rest) (s : String) :
      whole ++ s = first ++ (rest ++ s) := by
    rw [h, String.append_assoc]
  have hcode := hcut (show " [" = " " ++ "[" from rfl)
  have hlocation := hcut (show "\n  --> " = "\n" ++ "  --> " from rfl)
  have hcontext := hcut (show "\n  = in " = "\n" ++ "  = in " from rfl)
  have hnote := hcut (show "\n  = note: " = "\n" ++ "  = note: " from rfl)
  unfold text lines
  rw [Text.intercalate_cons]
  simp [hstring, hcode, hlocation, hcontext, hnote, Style.paint, String.join_append,
    String.append_assoc, Function.comp_def]

open Text

/-- The texts that a diagnostic is given. Its code, its severity and the line number are no free text. -/
def texts (d : Diagnostic) : List String :=
  d.message :: (d.location.toList.map (·.file) ++ d.context.toList ++ d.notes)

/-- Items that are written to one line each, in two ways. -/
theorem unstyles_map {α : Type} {items : List α} {styled plain : α → String}
    (h : ∀ a ∈ items, Unstyles (styled a) (plain a)) :
    List.Forall₂ Unstyles (items.map styled) (items.map plain) := by
  rw [List.forall₂_map_left_iff, List.forall₂_map_right_iff]
  exact List.forall₂_same.mpr h

theorem unstyles_lines {d : Diagnostic} (h : ∀ text ∈ d.texts, '\x1b' ∉ text.toList) :
    List.Forall₂ Unstyles (d.lines true) (d.lines false) := by
  have hmessage : '\x1b' ∉ d.message.toList := h _ List.mem_cons_self
  have hlocation (l : Location) (hl : l ∈ d.location.toList) : '\x1b' ∉ l.text.toList := by
    apply Location.escape_not_mem_text
    apply h
    simp only [texts, List.mem_cons, List.mem_append]
    exact Or.inr (Or.inl (Or.inl (List.mem_map_of_mem hl)))
  have hcontext (c : String) (hc : c ∈ d.context.toList) : '\x1b' ∉ c.toList := by
    apply h
    simp only [texts, List.mem_cons, List.mem_append]
    exact Or.inr (Or.inl (Or.inr hc))
  have hnotes (n : String) (hn : n ∈ d.notes) : '\x1b' ∉ n.toList := by
    apply h
    simp only [texts, List.mem_cons, List.mem_append]
    exact Or.inr (Or.inr hn)
  have hcode : '\x1b' ∉ ("[" ++ d.code.text ++ "]").toList := by
    simp only [String.toList_append, List.mem_append, not_or]
    exact ⟨⟨by decide, d.code.escape_not_mem_text⟩, by decide⟩
  apply List.Forall₂.cons
  -- the first line, from its end
  · apply Unstyles.append _ (unstyles_of_no_escape hmessage)
    apply Unstyles.append _ (unstyles_of_no_escape (by decide))
    apply Unstyles.append _ (Style.unstyles_paint _ hcode)
    apply Unstyles.append _ (unstyles_of_no_escape (by decide))
    exact Style.unstyles_paint _ d.severity.escape_not_mem_text
  -- the location, the context and the notes have a line each
  · apply List.rel_append
    · apply List.rel_append
      · apply unstyles_map
        intro l hl
        exact (unstyles_of_no_escape (by decide)).append (Style.unstyles_paint _ (hlocation l hl))
      · apply unstyles_map
        intro c hc
        exact (unstyles_of_no_escape (by decide)).append (unstyles_of_no_escape (hcontext c hc))
    · apply unstyles_map
      intro n hn
      apply Unstyles.append _ (unstyles_of_no_escape (hnotes n hn))
      apply Unstyles.append _ (unstyles_of_no_escape (by decide))
      exact (unstyles_of_no_escape (by decide)).append (Style.unstyles_paint _ (by decide))

/-- The plain block is the text of the diagnostic and two line feeds. The styled block without its escape
sequences is the plain one, if no text of the diagnostic holds an escape character of its own. -/
theorem block_agrees (d : Diagnostic) :
    d.block false = d.text ++ "\n\n" ∧
    ((∀ text ∈ d.texts, '\x1b' ∉ text.toList) →
      withoutSequences (d.block true).toList = (d.block false).toList) := by
  constructor
  · have hlines : d.lines false ≠ [] := List.cons_ne_nil _ _
    have hend : "\n" ++ "\n" = "\n\n" := by decide
    rw [block_eq, text_eq, join_closed hlines, String.append_assoc, hend]
  · intro hplain
    have hclosed : List.Forall₂ Unstyles ((d.lines true).map (· ++ "\n"))
        ((d.lines false).map (· ++ "\n")) := by
      rw [List.forall₂_map_left_iff, List.forall₂_map_right_iff]
      exact (unstyles_lines hplain).imp fun _ _ hline =>
        hline.append (unstyles_of_no_escape (by decide))
    rw [block_eq, block_eq]
    exact ((Unstyles.join hclosed).append (unstyles_of_no_escape (by decide))).eq

/-- A warning whose texts look like parts of escape sequences. -/
def frost : Diagnostic :=
  { code := .noStrategy
    severity := .warning
    message := "[1;36mfrost[0m on lamp[2]"
    location := some ⟨"winter/lamp.fx", 1207⟩
    context := some "program 'Lamp'"
    notes := ["", "[m"] }

/-- Brackets and letters of the texts stay; only the styles go. -/
theorem block_agrees_frost :
    (∀ text ∈ frost.texts, '\x1b' ∉ text.toList) ∧
    frost.block false = frost.text ++ "\n\n" ∧
    frost.text = "warning [W5001]: [1;36mfrost[0m on lamp[2]\n  --> winter/lamp.fx:1207\n" ++
      "  = in program 'Lamp'\n  = note: \n  = note: [m" ∧
    withoutSequences (frost.block true).toList = (frost.block false).toList := by
  have hplain : ∀ text ∈ frost.texts, '\x1b' ∉ text.toList := by decide
  obtain ⟨htext, hblock⟩ := block_agrees frost
  exact ⟨hplain, htext, by decide +kernel, hblock hplain⟩

end Diagnostic

end EffectLink
