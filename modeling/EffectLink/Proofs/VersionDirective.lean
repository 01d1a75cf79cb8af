import Mathlib.Data.List.Basic
import EffectLink.Proofs.TextPieces
import EffectLink.Shader.Source

namespace EffectLink

namespace Text

theorem not_blank_of_mem_words {text word : List Char} (h : word ∈ words text) :
    ∀ c ∈ word, isBlank c = false :=
  not_cut_of_mem_pieces (List.mem_filter.mp h).1

/-- Blanks in front of a text are trimmed, up to the first character that is none. -/
theorem trimStart_append {blanks rest : List Char} (hblanks : ∀ c ∈ blanks, isBlank c = true)
    (hrest : rest.head?.all (!isBlank ·) = true) : trimStart (blanks ++ rest) = rest := by
  unfold trimStart
  rw [List.dropWhile_append_of_pos hblanks]
  cases rest with
  | nil => rfl
  | cons c rest =>
    have hc : ¬isBlank c = true := by simpa using hrest
    rw [List.dropWhile_cons_of_neg hc]

end Text

namespace Shader

open Text

theorem splitFirstLine_of_no_break {text : List Char} (h : '\n' ∉ text) :
    splitFirstLine text = (text, []) := by
  induction text with
  | nil => rfl
  | cons c rest ih =>
    obtain ⟨hc, hrest⟩ := not_or.mp (fun hmem => h (List.mem_cons.mpr hmem))
    rw [splitFirstLine, if_neg (Ne.symm hc), ih hrest]

theorem splitFirstLine_of_break {line : List Char} (h : '\n' ∉ line) (rest : List Char) :
    splitFirstLine (line ++ '\n' :: rest) = (line ++ ['\n'], rest) := by
  induction line with
  | nil => rfl
  | cons c line ih =>
    obtain ⟨hc, hline⟩ := not_or.mp (fun hmem => h (List.mem_cons.mpr hmem))
    rw [List.cons_append, splitFirstLine, if_neg (Ne.symm hc), ih hline]
    rfl

theorem closeLine_of_break (line : List Char) : closeLine (line ++ ['\n']) = line ++ ['\n'] := by
  unfold closeLine
  rw [List.getLast?_concat]
  simp

theorem closeLine_of_no_break {line : List Char} (hne : line ≠ []) (h : '\n' ∉ line) :
    closeLine line = line ++ ['\n'] := by
  have hopen : ¬(line.isEmpty || line.getLast? = some '\n') = true := by
    rw [Bool.or_eq_true, not_or]
    refine ⟨fun hempty => hne (List.isEmpty_iff.mp hempty), fun hlast => h ?_⟩
    exact List.mem_of_getLast? (of_decide_eq_true hlast)
  unfold closeLine
  rw [if_neg hopen]

/-- The first text that is not blank is the version directive. -/
def VersionFirst (code : List Char) : Prop := versionDirective <+: trimStart code

instance : DecidablePred VersionFirst := fun _ => inferInstanceAs (Decidable (_ <+: _))

/-- What stands before the first text that is not blank. -/
def margin (code : List Char) : List Char := code.takeWhile isBlank

theorem blank_of_mem_margin (code : List Char) : ∀ c ∈ margin code, isBlank c = true :=
  List.all_eq_true.mp List.all_takeWhile

theorem versionFirst_append {blanks : List Char} (hblanks : ∀ c ∈ blanks, isBlank c = true)
    (rest : List Char) : VersionFirst (blanks ++ (versionDirective ++ rest)) := by
  unfold VersionFirst
  rw [trimStart_append hblanks rfl]
  exact List.prefix_append _ _

theorem VersionFirst.eq_margin_append {code : List Char} (h : VersionFirst code) :
    ∃ rest, code = margin code ++ (versionDirective ++ rest) := by
  obtain ⟨rest, hrest⟩ := h
  refine ⟨rest, ?_⟩
  rw [hrest]
  exact List.takeWhile_append_dropWhile.symm

theorem VersionFirst.not_blank {code : String} (h : VersionFirst code.toList) :
    isBlankText code = false := by
  obtain ⟨rest, hrest⟩ := h.eq_margin_append
  unfold isBlankText
  rw [hrest, List.all_append, List.all_append]
  have hmark : versionDirective.all isBlank = false := by decide
  rw [hmark, Bool.false_and, Bool.and_false]

/-- `text` is `code` with something put in after the line of the version directive. If nothing follows
that line then it may lack a line break, and gets one. -/
def InsertedAfterVersion (inserted code text : List Char) : Prop :=
  ∃ blanks line body, (∀ c ∈ blanks, isBlank c = true) ∧ '\n' ∉ line ∧
    (code = blanks ++ (versionDirective ++ (line ++ '\n' :: body)) ∨
      (code = blanks ++ (versionDirective ++ line) ∧ body = [])) ∧
    text = blanks ++ (versionDirective ++ (line ++ '\n' :: (inserted ++ body)))

/-- The text that is put together around the definitions. -/
def withDefinitions (code inserted : List Char) : List Char :=
  closeLine (splitVersion code).1 ++ inserted ++ (splitVersion code).2

theorem splitVersion_of_prefix {code line body : List Char} (hsplit : splitFirstLine code = (line, body))
    (hline : VersionFirst line) : splitVersion code = (line, body) := by
  unfold splitVersion
  rw [hsplit]
  exact if_pos (List.isPrefixOf_iff_prefix.mpr hline)

/-- A directive on the first line is found, and what is put in follows its line. -/
theorem inserted_of_first_line {code : List Char} (h : VersionFirst code) (hfirst : '\n' ∉ margin code)
    (inserted : List Char) : InsertedAfterVersion inserted code (withDefinitions code inserted) := by
  obtain ⟨rest, hcode⟩ := h.eq_margin_append
  have hblanks := blank_of_mem_margin code
  generalize margin code = blanks at hcode hfirst hblanks
  have hstart {line : List Char} (hline : '\n' ∉ line) :
      '\n' ∉ blanks ++ (versionDirective ++ line) := by
    have hmark : '\n' ∉ versionDirective := by decide
    rw [List.mem_append, List.mem_append]
    rintro (hmem | hmem | hmem)
    · exact hfirst hmem
    · exact hmark hmem
    · exact hline hmem
  by_cases hbreak : '\n' ∈ rest
  · -- the line of the directive ends at the first line break of what follows it
    obtain ⟨line, body, rfl, hline⟩ := List.eq_append_cons_of_mem hbreak
    have hsplit : splitFirstLine code = (blanks ++ (versionDirective ++ line) ++ ['\n'], body) := by
      have hcut := splitFirstLine_of_break (hstart hline) body
      rw [hcode]
      simpa only [List.append_assoc] using hcut
    have hversion : VersionFirst (blanks ++ (versionDirective ++ line) ++ ['\n']) := by
      simpa only [List.append_assoc] using versionFirst_append hblanks (line ++ ['\n'])
    refine ⟨blanks, line, body, hblanks, hline, Or.inl hcode, ?_⟩
    rw [withDefinitions, splitVersion_of_prefix hsplit hversion, closeLine_of_break]
    simp only [List.append_assoc, List.cons_append, List.nil_append]
  · -- there is one line only, and it is closed before something is put in
    have hsplit : splitFirstLine code = (blanks ++ (versionDirective ++ rest), []) := by
      rw [hcode]
      exact splitFirstLine_of_no_break (hstart hbreak)
    have hne : blanks ++ (versionDirective ++ rest) ≠ [] :=
      List.append_ne_nil_of_right_ne_nil _ (List.append_ne_nil_of_left_ne_nil (by decide) _)
    refine ⟨blanks, rest, [], hblanks, hbreak, Or.inr ⟨hcode, rfl⟩, ?_⟩
    rw [withDefinitions, splitVersion_of_prefix hsplit (versionFirst_append hblanks rest),
      closeLine_of_no_break hne (hstart hbreak)]
    simp only [List.append_assoc, List.cons_append, List.nil_append]

/-- A directive on a later line is not found. -/
theorem withDefinitions_of_later_line {code : List Char} (hlater : '\n' ∈ margin code)
    (inserted : List Char) : withDefinitions code inserted = inserted ++ code := by
  obtain ⟨line, more, hmargin, hline⟩ := List.eq_append_cons_of_mem hlater
  have hblank : ∀ c ∈ line ++ ['\n'], isBlank c = true := by
    intro c hc
    apply blank_of_mem_margin code
    have hfront : line ++ ['\n'] <+: margin code := ⟨more, by rw [hmargin, List.append_assoc]; rfl⟩
    exact hfront.subset hc
  have hsplit : (splitFirstLine code).1 = line ++ ['\n'] := by
    have hcode : code = line ++ '\n' :: (more ++ code.dropWhile isBlank) := by
      calc code = margin code ++ code.dropWhile isBlank := List.takeWhile_append_dropWhile.symm
        _ = line ++ '\n' :: (more ++ code.dropWhile isBlank) := by
          rw [hmargin, List.append_assoc]
          rfl
    rw [hcode, splitFirstLine_of_break hline]
  have htrimmed : trimStart (line ++ ['\n']) = [] := by
    have hall : trimStart (line ++ ['\n'] ++ []) = [] := trimStart_append hblank rfl
    rwa [List.append_nil] at hall
  have hnone : splitVersion code = ([], code) := by
    unfold splitVersion
    dsimp only
    rw [hsplit, htrimmed]
    rfl
  rw [withDefinitions, hnone]
  rfl

theorem source_of_definitions {s : Shader} (hcode : isBlankText s.function.code = false)
    (hsome : s.definitions ≠ []) :
    ∃ text, s.source = .ok text ∧
      text.toList = withDefinitions s.function.code.toList (String.join s.definitions).toList := by
  unfold source
  dsimp only
  rw [if_neg (Bool.eq_false_iff.mp hcode)]
  split
  · next hnone => exact absurd hnone hsome
  · refine ⟨_, rfl, ?_⟩
    rw [String.toList_append, String.toList_append, String.toList_ofList, String.toList_ofList]
    rfl

theorem source_of_no_definitions {s : Shader} (hcode : isBlankText s.function.code = false)
    (hnone : s.definitions = []) : s.source = .ok s.function.code := by
  unfold source
  dsimp only
  rw [if_neg (Bool.eq_false_iff.mp hcode), hnone]

/-- The mark in front of every definition. -/
def definitionMark : List Char := "#define ".toList

/-- One line that defines something. -/
def IsDefinition (line : String) : Prop :=
  ∃ definition, '\n' ∉ definition ∧ line.toList = definitionMark ++ definition ++ ['\n']

theorem toList_bindingLine (b : String × String) :
    (bindingLine b).toList = definitionMark ++ (b.1.toList ++ (' ' :: b.2.toList)) ++ ['\n'] := by
  unfold bindingLine definitionMark
  simp only [String.toList_append, toString, List.append_assoc]
  rfl

theorem isDefinition_bindingLine (b : String × String) :
    IsDefinition (bindingLine b) ↔ '\n' ∉ b.1.toList ∧ '\n' ∉ b.2.toList := by
  have hbreak : '\n' ∉ b.1.toList ++ ' ' :: b.2.toList ↔
      '\n' ∉ b.1.toList ∧ '\n' ∉ b.2.toList := by
    rw [List.mem_append, List.mem_cons, not_or, not_or]
    exact and_congr_right fun _ => and_iff_right (by decide)
  rw [← hbreak]
  constructor
  · rintro ⟨definition, hdefinition, hline⟩
    rw [toList_bindingLine, List.append_left_inj, List.append_right_inj] at hline
    rw [hline]
    exact hdefinition
  · exact fun h => ⟨_, h, toList_bindingLine b⟩

/-- What a flag is defined as has no line break, since a flag has no blanks. -/
theorem isDefinition_flagLine {flag : List Char} (h : ∀ c ∈ flag, isBlank c = false) :
    IsDefinition (flagLine flag) := by
  have hflag : '\n' ∉ flag := fun hmem => absurd (h _ hmem) (by decide)
  unfold flagLine IsDefinition definitionMark
  split
  · next name value hsplit =>
    rw [eq_of_splitFirst hsplit, List.mem_append, List.mem_cons, not_or, not_or] at hflag
    refine ⟨name ++ ' ' :: value, ?_, ?_⟩
    · rw [List.mem_append, List.mem_cons, not_or, not_or]
      exact ⟨hflag.1, by decide, hflag.2.2⟩
    · simp only [String.toList_append, toString, String.toList_ofList, List.append_assoc]
      rfl
  · refine ⟨flag, hflag, ?_⟩
    simp only [String.toList_append, toString, String.toList_ofList, List.append_assoc]
    rfl

theorem isDefinition_definitions (s : Shader) :
    (∀ line ∈ s.definitions, IsDefinition line) ↔
      ∀ b ∈ s.bindings.entries, '\n' ∉ b.1.toList ∧ '\n' ∉ b.2.toList := by
  unfold definitions
  rw [List.forall_mem_append, List.forall_mem_map, List.forall_mem_map]
  have hflags : ∀ flag ∈ words s.compileFlags.toList, IsDefinition (flagLine flag) :=
    fun flag hflag => isDefinition_flagLine (not_blank_of_mem_words hflag)
  rw [and_iff_left hflags]
  exact forall₂_congr fun b _ => isDefinition_bindingLine b

/-- Every definition has its mark in front, so a text that begins with definitions does not begin with
the version directive. -/
theorem not_versionFirst_definitions {s : Shader} (hsome : s.definitions ≠ []) (code : List Char) :
    ¬VersionFirst (s.definitions.flatMap String.toList ++ code) := by
  have hmark : ∀ line ∈ s.definitions, definitionMark <+: line.toList := by
    unfold definitions
    rw [List.forall_mem_append, List.forall_mem_map, List.forall_mem_map]
    refine ⟨fun b _ => ?_, fun flag hflag => ?_⟩
    · rw [toList_bindingLine, List.append_assoc]
      exact List.prefix_append _ _
    · obtain ⟨_, -, hline⟩ := isDefinition_flagLine (not_blank_of_mem_words hflag)
      rw [hline, List.append_assoc]
      exact List.prefix_append _ _
  obtain ⟨line, more, hlines⟩ := List.exists_cons_of_ne_nil hsome
  obtain ⟨rest, hrest⟩ := hmark line (by rw [hlines]; exact List.mem_cons_self)
  rw [hlines, List.flatMap_cons, ← hrest, List.append_assoc, List.append_assoc]
  generalize rest ++ (more.flatMap String.toList ++ code) = after
  have htrimmed : trimStart (definitionMark ++ after) = definitionMark ++ after :=
    trimStart_append (List.forall_mem_nil _) rfl
  unfold VersionFirst
  rw [htrimmed]
  -- the second character tells the two marks apart
  rintro ⟨rest, hsame⟩
  have hsecond : some 'v' = some 'd' := congrArg (fun text : List Char => text[1]?) hsame
  exact absurd hsecond (by decide)

/-- Code that begins with the version directive has a source. Without definitions that is the code. With
definitions, which are one for each binding in the order of the keys and then one for each flag, there
are two cases. If the directive is on the first line, then the source begins with it, and the definitions
follow its line; without them it is the code again, up to a line break at the end. If the directive is on
a later line, then the definitions come first. Each of the definitions is one line if no key and no
value of the bindings has a line break. -/
theorem source_version (s : Shader) (h : VersionFirst s.function.code.toList) :
    let code := s.function.code.toList
    let lines := s.bindings.entries.map bindingLine ++ (words s.compileFlags.toList).map flagLine
    ∃ text, s.source = .ok text ∧
      (lines = [] → text = s.function.code) ∧
      (lines ≠ [] → '\n' ∉ margin code → VersionFirst text.toList ∧
        InsertedAfterVersion (lines.flatMap String.toList) code text.toList) ∧
      (lines ≠ [] → '\n' ∈ margin code → ¬VersionFirst text.toList ∧
        text.toList = lines.flatMap String.toList ++ code) ∧
      ((∀ line ∈ lines, IsDefinition line) ↔
        ∀ b ∈ s.bindings.entries, '\n' ∉ b.1.toList ∧ '\n' ∉ b.2.toList) := by
  intro code lines
  by_cases hnone : lines = []
  · refine ⟨s.function.code, source_of_no_definitions h.not_blank hnone, fun _ => rfl,
      fun hsome => absurd hnone hsome, fun hsome => absurd hnone hsome, isDefinition_definitions s⟩
  · obtain ⟨text, hsource, htext⟩ := source_of_definitions h.not_blank hnone
    rw [String.toList_join] at htext
    change text.toList = withDefinitions code (lines.flatMap String.toList) at htext
    refine ⟨text, hsource, fun hnil => absurd hnil hnone, fun _ hfirst => ?_, fun _ hlater => ?_,
      isDefinition_definitions s⟩
    · have hinserted := inserted_of_first_line h hfirst (lines.flatMap String.toList)
      rw [← htext] at hinserted
      refine ⟨?_, hinserted⟩
      obtain ⟨blanks, line, body, hblanks, -, -, hall⟩ := hinserted
      rw [hall]
      exact versionFirst_append hblanks _
    · rw [withDefinitions_of_later_line hlater] at htext
      refine ⟨?_, htext⟩
      rw [htext]
      exact not_versionFirst_definitions hnone code

/-- A shader with a binding, a flag and a flag with a value. -/
def gable (code : String) : Shader :=
  { stage := .pixel, identity := "gable(shade = slate)"
    function :=
      { name := "gable", location := ⟨"roof.json", 1⟩, returnType := .builtin .void, parameters := []
        isShader := true, attributes := .none, code }
    compileFlags := "FOG LIGHTS=4", bindings := .ofList [("shade", "slate")] }

/-- The directive is indented, and its line has no line break. -/
theorem source_version_gable :
    VersionFirst (gable "  #version 450").function.code.toList ∧
    ∃ text, (gable "  #version 450").source = .ok text ∧ VersionFirst text.toList ∧
      InsertedAfterVersion "#define shade slate\n#define FOG\n#define LIGHTS 4\n".toList
        "  #version 450".toList text.toList := by
  have hfirst : VersionFirst (gable "  #version 450").function.code.toList := by decide
  obtain ⟨text, hsource, -, hinserted, -⟩ := source_version (gable "  #version 450") hfirst
  exact ⟨hfirst, text, hsource, hinserted (by decide) (by decide)⟩

/-- The directive is on the second line, after an empty one, and the source begins with a definition. -/
theorem source_loses_version :
    VersionFirst "\n#version 450\nvoid main() {}\n".toList ∧
    (gable "\n#version 450\nvoid main() {}\n").source = .ok
      ("#define shade slate\n#define FOG\n#define LIGHTS 4\n" ++ "\n#version 450\nvoid main() {}\n") ∧
    ¬VersionFirst ("#define shade slate\n#define FOG\n#define LIGHTS 4\n" ++
      "\n#version 450\nvoid main() {}\n").toList := by
  decide

end Shader

end EffectLink
