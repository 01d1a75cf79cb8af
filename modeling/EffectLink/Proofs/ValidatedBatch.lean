import EffectLink.Proofs.ProgramValidity

namespace EffectLink

namespace Program

variable {t t' : SymbolTable} {p : Program} {options : LinkOptions}

/-- Patch size after validation. -/
def validatedPatchSize (p : Program) (t : SymbolTable) : UInt32 :=
  match (p.functions t).hull with
  | some hull => hull.attributeValue .inputVertices
  | none => p.patchSize

/-- The table after a program has entered its name. -/
def entered (p : Program) (t : SymbolTable) : SymbolTable :=
  ⟨t.symbols ++ [.program ⟨p.name, p.location⟩]⟩

theorem get?_entered (n : String) :
    (p.entered t).get? n =
      (t.get? n).or (if p.name = n then some (.program ⟨p.name, p.location⟩) else none) := by
  have h := SymbolTable.get?_append t.symbols [.program ⟨p.name, p.location⟩] n
  rw [SymbolTable.get?_singleton] at h
  exact h

theorem addsPrograms_entered : t.AddsPrograms (p.entered t) := by
  intro n
  rw [get?_entered]
  cases t.get? n with
  | some s => exact Or.inl rfl
  | none =>
    by_cases hn : p.name = n
    · rw [if_pos hn]
      exact Or.inr ⟨rfl, _, rfl⟩
    · rw [if_neg hn]
      exact Or.inl rfl

theorem validate_fresh (h : t.get? p.name = none) :
    p.validate t options =
      ⟨{ p with patchSize := p.validatedPatchSize (p.entered t) }, p.entered t,
        p.violations (p.entered t) options⟩ := by
  have hr : t.register (.program ⟨p.name, p.location⟩) = .ok (p.entered t) :=
    SymbolTable.register_eq_ok.mpr ⟨h, rfl⟩
  rw [validate, hr]
  rfl

theorem validate_taken {s : Symbol} (h : t.get? p.name = some s) :
    p.validate t options = ⟨p, t, [.redefinition "program" p.name p.location s.location]⟩ := by
  have hr : t.register (.program ⟨p.name, p.location⟩) = .error ⟨p.name, s.location⟩ :=
    SymbolTable.register_eq_error h
  rw [validate, hr]

theorem addsPrograms_validate : t.AddsPrograms (p.validate t options).table := by
  cases h : t.get? p.name with
  | none =>
    rw [validate_fresh h]
    exact addsPrograms_entered
  | some s =>
    rw [validate_taken h]
    exact SymbolTable.AddsPrograms.refl t

/-- Validation changes nothing of a program but its patch size. -/
theorem validate_program :
    ∃ size, (p.validate t options).program = { p with patchSize := size } := by
  cases h : t.get? p.name with
  | none =>
    rw [validate_fresh h]
    exact ⟨_, rfl⟩
  | some s =>
    rw [validate_taken h]
    exact ⟨p.patchSize, rfl⟩

theorem name_validate : (p.validate t options).program.name = p.name := by
  obtain ⟨size, hsize⟩ := validate_program (p := p) (t := t)
  rw [hsize]

/-- A program that passes had a name that was free, holds it from then on, and names nothing that is
not declared. -/
theorem validate_passed (h : (p.validate t options).faults = []) :
    t.get? p.name = none ∧
    (p.validate t options).table.get? p.name = some (.program ⟨p.name, p.location⟩) ∧
    (p.validate t options).program.Resolvable (p.validate t options).table := by
  cases hname : t.get? p.name with
  | none =>
    rw [validate_fresh hname] at h ⊢
    have hr := (violations_eq_nil.mp h).1
    refine ⟨rfl, ?_, ⟨hr.functions, hr.interfaces, hr.implementations, hr.renderState⟩⟩
    dsimp only
    rw [get?_entered, hname, if_pos rfl]
    rfl
  | some s =>
    rw [validate_taken hname] at h
    contradiction

/-- The programs in the table do not matter to a program whose name is in neither table, or in both. -/
theorem validate_congr {base : SymbolTable} (h : base.AddsPrograms t) (h' : base.AddsPrograms t')
    (hname : t.get? p.name = none ↔ t'.get? p.name = none) :
    (p.validate t options).program = (p.validate t' options).program ∧
    ((p.validate t options).faults = [] ↔ (p.validate t' options).faults = []) := by
  cases hn : t.get? p.name with
  | none =>
    have hagrees : (p.entered t).Agrees (p.entered t') :=
      (h.trans addsPrograms_entered).agrees (h'.trans addsPrograms_entered)
    rw [validate_fresh hn, validate_fresh (hname.mp hn)]
    refine ⟨?_, violations_eq_nil_congr hagrees⟩
    dsimp only
    rw [validatedPatchSize, validatedPatchSize, functions_congr hagrees]
  | some s =>
    cases hn' : t'.get? p.name with
    | none =>
      rw [hname.mpr hn'] at hn
      contradiction
    | some s' =>
      rw [validate_taken hn, validate_taken hn']
      exact ⟨rfl, by simp⟩

end Program

namespace Linker

variable (options : LinkOptions) (t : SymbolTable)

theorem validateAll_cons (decl : ProgramDecl) (rest : List ProgramDecl) :
    validateAll options t (decl :: rest) =
      let v := (Program.ofDecl decl).validate t options
      let more := validateAll options v.table rest
      ⟨⟨v.program, v.faults.isEmpty⟩ :: more.programs, more.table, v.faults ++ more.faults⟩ := rfl

theorem length_validateAll (decls : List ProgramDecl) :
    (validateAll options t decls).programs.length = decls.length := by
  induction decls generalizing t with
  | nil => rfl
  | cons decl rest ih => exact congrArg (· + 1) (ih _)

theorem names_validateAll (decls : List ProgramDecl) :
    (validateAll options t decls).programs.map (·.program.name) = decls.map (·.name) := by
  induction decls generalizing t with
  | nil => rfl
  | cons decl rest ih =>
    rw [validateAll_cons, List.map_cons, List.map_cons, ih, Program.name_validate,
      Program.name_ofDecl]

theorem addsPrograms_validateAll (decls : List ProgramDecl) :
    t.AddsPrograms (validateAll options t decls).table := by
  induction decls generalizing t with
  | nil => exact SymbolTable.AddsPrograms.refl t
  | cons decl rest ih => exact Program.addsPrograms_validate.trans (ih _)

/-- A name that no program has is answered as before. -/
theorem get?_validateAll {decls : List ProgramDecl} {n : String}
    (h : ∀ d ∈ decls, d.name ≠ n) :
    (validateAll options t decls).table.get? n = t.get? n := by
  induction decls generalizing t with
  | nil => rfl
  | cons decl rest ih =>
    have hrest : ∀ d ∈ rest, d.name ≠ n := fun d hd => h d (List.mem_cons_of_mem _ hd)
    have hn : ¬(Program.ofDecl decl).name = n := by
      rw [Program.name_ofDecl]
      exact h decl List.mem_cons_self
    rw [validateAll_cons]
    dsimp only
    rw [ih _ hrest]
    cases hname : t.get? (Program.ofDecl decl).name with
    | none =>
      rw [Program.validate_fresh hname]
      dsimp only
      rw [Program.get?_entered, if_neg hn, Option.or_none]
    | some s => rw [Program.validate_taken hname]

/-- A program that passes has a name that was free from the start. -/
theorem free_of_mem_validateAll {decls : List ProgramDecl} {linked : LinkedProgram}
    (hmem : linked ∈ (validateAll options t decls).programs) (hok : linked.ok = true) :
    t.get? linked.program.name = none := by
  induction decls generalizing t with
  | nil => exact absurd hmem List.not_mem_nil
  | cons decl rest ih =>
    rw [validateAll_cons] at hmem
    rcases List.mem_cons.mp hmem with rfl | hmem
    · obtain ⟨hfree, -, -⟩ := Program.validate_passed (List.isEmpty_iff.mp hok)
      rw [Program.name_validate]
      exact hfree
    · have hlater := ih _ hmem
      cases hname : t.get? linked.program.name with
      | none => rfl
      | some s =>
        rw [Program.addsPrograms_validate.get? hname] at hlater
        contradiction

/-- No two programs that pass have the same name. -/
theorem pairwise_names_validateAll (decls : List ProgramDecl) :
    (validateAll options t decls).programs.Pairwise fun a b =>
      a.ok = true → b.ok = true → a.program.name ≠ b.program.name := by
  induction decls generalizing t with
  | nil => exact List.Pairwise.nil
  | cons decl rest ih =>
    rw [validateAll_cons]
    refine List.pairwise_cons.mpr ⟨fun later hmem hok hok' hname => ?_, ih _⟩
    obtain ⟨-, hheld, -⟩ := Program.validate_passed (List.isEmpty_iff.mp hok)
    have hfree := free_of_mem_validateAll options _ hmem hok'
    rw [← hname, Program.name_validate, hheld] at hfree
    contradiction

/-- The program at a position is validated against the declarations and the programs before it. -/
theorem getElem?_validateAll (decls : List ProgramDecl) (i : Nat) :
    (validateAll options t decls).programs[i]? = decls[i]?.map fun decl =>
      let v := (Program.ofDecl decl).validate (validateAll options t (decls.take i)).table options
      ⟨v.program, v.faults.isEmpty⟩ := by
  induction decls generalizing t i with
  | nil => rfl
  | cons decl rest ih =>
    cases i with
    | zero => rfl
    | succ i => exact ih _ i

end Linker

end EffectLink
