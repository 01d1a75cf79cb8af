import EffectLink.Proofs.LinkReports
import EffectLink.Proofs.QueueMerging
import EffectLink.Proofs.ResolvedBatch
import EffectLink.Proofs.ViolationCount

namespace EffectLink

section Lists

variable {α : Type} {sort sort' : Diagnostic → Prop} {d : Diagnostic} {ds ds' : List Diagnostic}

/-- Diagnostics of one sort. -/
def AllOf (sort : Diagnostic → Prop) (ds : List Diagnostic) : Prop := ∀ d ∈ ds, sort d

theorem allOf_nil : AllOf sort [] := fun _ hd => absurd hd List.not_mem_nil

theorem allOf_cons : AllOf sort (d :: ds) ↔ sort d ∧ AllOf sort ds := List.forall_mem_cons

theorem allOf_singleton (h : sort d) : AllOf sort [d] := allOf_cons.mpr ⟨h, allOf_nil⟩

theorem allOf_append : AllOf sort (ds ++ ds') ↔ AllOf sort ds ∧ AllOf sort ds' :=
  List.forall_mem_append

theorem allOf_flatMap {xs : List α} {f : α → List Diagnostic} (h : ∀ x ∈ xs, AllOf sort (f x)) :
    AllOf sort (xs.flatMap f) := by
  intro d hd
  obtain ⟨x, hx, hd⟩ := List.mem_flatMap.mp hd
  exact h x hx d hd

theorem allOf_ite {c : Prop} [Decidable c] (h : AllOf sort ds) (h' : AllOf sort ds') :
    AllOf sort (if c then ds else ds') := by
  split
  · exact h
  · exact h'

end Lists

/-- Diagnostics that do not come from linking. -/
abbrev Early : List Diagnostic → Prop := AllOf fun d => d.code.ofLinking = false

/-- Errors that checking finds. -/
abbrev Flaws : List Diagnostic → Prop := AllOf fun d => d.isError = true ∧ d.code.ofChecking = true

theorem Flaws.early {ds : List Diagnostic} (h : Flaws ds) : Early ds :=
  fun d hd => Code.ofLinking_of_ofChecking (h d hd).2

namespace SymbolTable

theorem flaws_registerAll {α : Type} (symbol : α → Symbol) (t : SymbolTable) (declared : List α) :
    Flaws (t.registerAll symbol declared).faults := by
  induction declared generalizing t with
  | nil => exact allOf_nil
  | cons a declared ih =>
    unfold registerAll
    cases t.register (symbol a) with
    | ok extended => exact ih extended
    | error taken => exact allOf_cons.mpr ⟨⟨rfl, rfl⟩, ih t⟩

theorem flaws_typeFaults (t : SymbolTable) (owner : String) (l : Location) (type : DataType) :
    Flaws (t.typeFaults owner l type) := by
  unfold typeFaults
  split
  · exact allOf_nil
  · split
    · exact allOf_nil
    · exact allOf_singleton ⟨rfl, rfl⟩
    · exact allOf_singleton ⟨rfl, rfl⟩

theorem flaws_structureFaults (t : SymbolTable) (s : Structure) : Flaws (t.structureFaults s) := by
  unfold structureFaults recursionFaults
  refine allOf_append.mpr ⟨allOf_ite (allOf_singleton ⟨rfl, rfl⟩) allOf_nil, ?_⟩
  exact allOf_flatMap fun _ _ => allOf_ite allOf_nil (t.flaws_typeFaults _ _ _)

theorem flaws_slotFaults (function list : String) (earlier rest : List (Parameter × UInt32)) :
    Flaws (slotFaults function list earlier rest) := by
  induction rest generalizing earlier with
  | nil => exact allOf_nil
  | cons p rest ih =>
    unfold slotFaults
    refine allOf_append.mpr ⟨?_, ih _⟩
    split
    · exact allOf_singleton ⟨rfl, rfl⟩
    · exact allOf_nil

theorem flaws_functionFaults (t : SymbolTable) (f : Function) : Flaws (t.functionFaults f) := by
  unfold functionFaults
  simp only [allOf_append]
  exact ⟨⟨⟨t.flaws_typeFaults _ _ _, allOf_flatMap fun _ _ => t.flaws_typeFaults _ _ _⟩,
    flaws_slotFaults _ _ _ _⟩, flaws_slotFaults _ _ _ _⟩

end SymbolTable

theorem Effect.flaws_check (effect : Effect) (t : SymbolTable) : Flaws (effect.check t).faults := by
  unfold check
  simp only [allOf_append]
  exact ⟨⟨⟨⟨⟨⟨⟨SymbolTable.flaws_registerAll _ _ _, SymbolTable.flaws_registerAll _ _ _⟩,
    SymbolTable.flaws_registerAll _ _ _⟩, SymbolTable.flaws_registerAll _ _ _⟩,
    SymbolTable.flaws_registerAll _ _ _⟩,
    allOf_flatMap fun _ _ => SymbolTable.flaws_structureFaults _ _⟩,
    allOf_flatMap fun _ _ => SymbolTable.flaws_typeFaults _ _ _ _⟩,
    allOf_flatMap fun _ _ => SymbolTable.flaws_functionFaults _ _⟩

theorem Effect.early_check (effect : Effect) (t : SymbolTable) : Early (effect.check t).faults :=
  Flaws.early (effect.flaws_check t)

namespace Linker

variable {U : Type}

theorem flaws_validateAll (options : LinkOptions) (t : SymbolTable) (decls : List ProgramDecl) :
    Flaws (validateAll options t decls).faults := by
  induction decls generalizing t with
  | nil => exact allOf_nil
  | cons decl rest ih =>
    have hfaults := (Program.ofDecl decl).faults_validate t options
    refine allOf_append.mpr ⟨fun d hd => ⟨?_, hfaults.code d hd⟩, ih _⟩
    exact beq_iff_eq.mpr (hfaults.severity d hd)

theorem early_validateAll (options : LinkOptions) (t : SymbolTable) (decls : List ProgramDecl) :
    Early (validateAll options t decls).faults :=
  Flaws.early (flaws_validateAll options t decls)

/-- Giving out shaders reports warnings about flags and nothing else. -/
theorem warnings_resolveAll {symbols : SymbolTable} {programs : List LinkedProgram} (header : Header)
    (pool : Pool) (h : Ready symbols programs) :
    AllOf (fun d => d.code = .conflictingFlags ∧ d.isError = false)
      (resolveAll symbols header pool programs).diagnostics := by
  induction programs generalizing pool with
  | nil => exact allOf_nil
  | cons linked programs ih =>
    by_cases hok : linked.ok = true
    · have hr := Program.resolving_resolve header pool (h linked List.mem_cons_self hok)
      rw [resolveAll_cons_of_ok header pool hok]
      exact allOf_append.mpr ⟨hr.warnings, ih _ h.tail⟩
    · rw [resolveAll_cons_of_not_ok header pool hok]
      exact ih pool h.tail

theorem early_resolveAll {symbols : SymbolTable} {programs : List LinkedProgram} (header : Header)
    (pool : Pool) (h : Ready symbols programs) :
    Early (resolveAll symbols header pool programs).diagnostics := by
  intro d hd
  rw [(warnings_resolveAll header pool h d hd).1]
  rfl

/-- Between two sessions nothing about linking is reported. -/
def EarlyUntil (s later : Session) : Prop :=
  s.queue.Receives (fun d => d.code.ofLinking = false) later.queue

variable {s : Session}

theorem earlyUntil_report {ds : List Diagnostic} (h : Early ds) : EarlyUntil s (s.report ds) :=
  Queue.receives_addAll h

/-- What is reported while shaders are compiled: failures of shaders and of files. -/
def Compiling (d : Diagnostic) : Prop := d.code = .compileFailure ∨ d.code = .ioFailure

theorem compiling_dumpSource (outDir : String) (shader : Shader) (source : String)
    (medium : Medium) :
    s.queue.Receives Compiling (dumpSource outDir shader source s medium).queue := by
  unfold dumpSource
  dsimp only
  split
  · exact .refl _
  · exact Queue.receives_addAll (allOf_singleton (Or.inr rfl))

theorem compiling_compileShader (job : Job) (backend : Backend U) (shader : Shader)
    (medium : Medium) :
    s.queue.Receives Compiling (compileShader job backend s shader medium).1.queue := by
  unfold compileShader
  dsimp only
  split
  · exact Queue.receives_addAll (allOf_singleton (Or.inl rfl))
  · next source _ =>
    have hdumped : s.queue.Receives Compiling (if job.header.switches.dumpSources then
        dumpSource job.outDir shader source s medium else s).queue := by
      split
      · exact compiling_dumpSource _ _ _ _
      · exact .refl _
    split
    · exact hdumped
    · exact hdumped.trans (Queue.receives_addAll (allOf_singleton (Or.inl rfl)))

theorem compiling_compileAll (job : Job) (backend : Backend U) (shaders : List Shader)
    (medium : Medium) :
    s.queue.Receives Compiling (compileAll job backend s shaders medium).1.queue := by
  induction shaders generalizing s with
  | nil => exact .refl _
  | cons shader rest ih => exact (compiling_compileShader job backend shader medium).trans ih

theorem compiling_units (job : Job) (backend : Backend U) (pool : Pool) (medium : Medium) :
    s.queue.Receives Compiling (units job backend pool s medium).1.queue := by
  unfold units
  split
  · exact compiling_compileAll job backend _ _
  · exact .refl _

theorem earlyUntil_units (job : Job) (backend : Backend U) (pool : Pool) (medium : Medium) :
    EarlyUntil s (units job backend pool s medium).1 := by
  refine (compiling_units job backend pool medium).mono ?_
  intro d hd
  rcases hd with hd | hd
  · rw [hd]
    rfl
  · rw [hd]
    rfl

theorem earlyUntil_reported (job : Job) (effect : Effect) :
    EarlyUntil s (reported job effect s) := by
  have hdeclared : EarlyUntil s (s.report (effect.check .empty).faults) :=
    earlyUntil_report (effect.early_check .empty)
  have hvalidated := hdeclared.trans (Queue.receives_addAll
    (early_validateAll job.options (effect.check .empty).table effect.programs))
  exact hvalidated.trans (Queue.receives_addAll
    (early_resolveAll job.header .empty (ready_admitted job effect s)))

/-- A session whose queue remembers nothing about linking. -/
def EarlySession (s : Session) : Prop := Early s.queue.remembered

theorem EarlySession.later (h : EarlySession s) {later : Session} (hlater : EarlyUntil s later) :
    EarlySession later :=
  fun d hd => (hlater.mem_remembered hd).elim (h d) id

theorem EarlySession.units (h : EarlySession s) (job : Job) (backend : Backend U) (pool : Pool)
    (medium : Medium) : EarlySession (Linker.units job backend pool s medium).1 :=
  h.later (earlyUntil_units job backend pool medium)

theorem EarlySession.reported (h : EarlySession s) (job : Job) (effect : Effect) :
    EarlySession (Linker.reported job effect s) :=
  h.later (earlyUntil_reported job effect)

end Linker

end EffectLink
