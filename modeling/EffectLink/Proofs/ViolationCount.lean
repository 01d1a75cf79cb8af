import Mathlib.Algebra.GroupWithZero.Nat
import EffectLink.Proofs.LinkReports
import EffectLink.Proofs.QueueMerging
import EffectLink.Proofs.ValidatedBatch

namespace EffectLink

/-- `ds` are `n` errors that checking has found. -/
structure Faults (ds : List Diagnostic) (n : Nat) : Prop where
  length : ds.length = n
  severity : ∀ d ∈ ds, d.severity = .error
  code : ∀ d ∈ ds, d.code.ofChecking = true

section Lists

variable {α : Type} {ds ds' : List Diagnostic} {n n' : Nat}

theorem faults_nil : Faults [] 0 :=
  ⟨rfl, fun _ hd => absurd hd List.not_mem_nil, fun _ hd => absurd hd List.not_mem_nil⟩

theorem faults_map {xs : List α} {f : α → Diagnostic} (h : ∀ x ∈ xs, (f x).severity = .error)
    (hcode : ∀ x ∈ xs, (f x).code.ofChecking = true) : Faults (xs.map f) xs.length :=
  ⟨List.length_map _, List.forall_mem_map.mpr h, List.forall_mem_map.mpr hcode⟩

theorem faults_singleton {d : Diagnostic} (h : d.severity = .error)
    (hcode : d.code.ofChecking = true) : Faults [d] 1 :=
  ⟨rfl, List.forall_mem_singleton.mpr h, List.forall_mem_singleton.mpr hcode⟩

theorem Faults.append (h : Faults ds n) (h' : Faults ds' n') : Faults (ds ++ ds') (n + n') := by
  refine ⟨?_, List.forall_mem_append.mpr ⟨h.severity, h'.severity⟩,
    List.forall_mem_append.mpr ⟨h.code, h'.code⟩⟩
  rw [List.length_append, h.length, h'.length]

theorem faults_flatMap {xs : List α} {f : α → List Diagnostic} {count : α → Nat}
    (h : ∀ x ∈ xs, Faults (f x) (count x)) : Faults (xs.flatMap f) (xs.map count).sum := by
  induction xs with
  | nil => exact faults_nil
  | cons x xs ih =>
    obtain ⟨hfirst, hrest⟩ := List.forall_mem_cons.mp h
    rw [List.flatMap_cons, List.map_cons, List.sum_cons]
    exact hfirst.append (ih hrest)

/-- One error unless a condition holds. -/
theorem faults_unless {c : Bool} {d : Diagnostic} (h : d.severity = .error)
    (hcode : d.code.ofChecking = true) : Faults (if c then [] else [d]) (!c).toNat := by
  cases c with
  | true => exact faults_nil
  | false => exact faults_singleton h hcode

end Lists

/-- A queue that keeps everything takes errors in one by one. -/
theorem Queue.addAll_faults {q : Queue} {ds : List Diagnostic} {n : Nat}
    (hq : q.config = .unlimited) (h : Faults ds n) :
    q.addAll ds = { q with kept := q.kept ++ ds, errors := q.errors + n } := by
  induction ds generalizing q n with
  | nil =>
    rw [← h.length, List.append_nil]
    rfl
  | cons d ds ih =>
    obtain ⟨hd, hds⟩ := List.forall_mem_cons.mp h.severity
    have hfirst : q.add d = { q with kept := q.kept ++ [d], errors := q.errors + 1 } := by
      unfold add offer seen limitReached
      rw [hq, hd]
      rfl
    have hcodes := (List.forall_mem_cons.mp h.code).2
    have hrest := ih (q := q.add d) (by rw [config_add, hq]) ⟨rfl, hds, hcodes⟩
    have hn : n = 1 + ds.length := by rw [← h.length, List.length_cons, Nat.add_comm]
    change (q.add d).addAll ds = _
    rw [hrest, hfirst, hn]
    simp only [List.append_assoc, List.singleton_append, Nat.add_assoc]

namespace Symbol

/-- A variable that declares a subroutine prototype. -/
def prototype? : Symbol → Option Variable
  | .global v => if v.isPrototype then some v else none
  | _ => none

/-- A subroutine that is declared as an implementation. -/
def implementation? : Symbol → Option Subroutine
  | .subroutine r => if r.kind = .implementation then some r else none
  | _ => none

/-- A function that is marked as a shader. -/
def shader? : Symbol → Option Function
  | .function f => if f.isShader then some f else none
  | _ => none

end Symbol

namespace SymbolTable

variable {α : Type} {t t' : SymbolTable}

/-- What a name stands for, seen as one kind of thing. -/
def view? (t : SymbolTable) (view : Symbol → Option α) (n : String) : Option α :=
  (t.get? n).bind view

/-- Where programs count for nothing, tables that differ in programs alone answer alike. -/
theorem view?_congr (h : t.Agrees t') (view : Symbol → Option α)
    (hview : ∀ p, view (.program p) = none) (n : String) : t.view? view n = t'.view? view n := by
  have hsome {t t' : SymbolTable} (h : t.Agrees t') {a : α} (ha : t.view? view n = some a) :
      t'.view? view n = some a := by
    obtain ⟨s, hs, hv⟩ := Option.bind_eq_some_iff.mp ha
    have hkind : s.kind ≠ .program := by
      intro hk
      cases s with
      | program p =>
        rw [hview] at hv
        contradiction
      | _ => contradiction
    exact Option.bind_eq_some_iff.mpr ⟨s, (h n s hkind).mp hs, hv⟩
  have h' : t'.Agrees t := fun n s hk => (h n s hk).symm
  exact Option.ext fun a => ⟨hsome h, hsome h'⟩

end SymbolTable

namespace Program

variable (p : Program) (t : SymbolTable)

/-- The entries of an annotation whose key an earlier entry has. -/
def repeatedEntries (entries : List AnnotationEntry) : Nat :=
  entries.zipIdx.countP fun e => (entries.take e.2).any fun d => d.key == e.1.key

/-- The function of a stage, if the stage is populated and its row names a shader function. -/
def shader? (stage : Stage) : Option Function :=
  (p.slot stage).bind fun slot => t.view? Symbol.shader? slot.function

/-- Of every binding, an interface that is no prototype and an implementation that is none. -/
def bindingViolations : Nat :=
  (p.populated.map fun stage => ((p.slots.get stage).bindings.entries.map fun b =>
    (t.view? Symbol.prototype? b.1).isNone.toNat +
      (t.view? Symbol.implementation? b.2).isNone.toNat).sum).sum

/-- No render state, or a name that stands for none. -/
def renderStateViolations : Nat :=
  (p.renderState.bind fun row => t.view? Symbol.renderState? row.name).isNone.toNat

/-- The populated stages without a shader function. -/
def functionViolations : Nat := (p.populated.map fun stage => (p.shader? t stage).isNone.toNat).sum

/-- One of hull and domain without the other. -/
def pairViolations : Nat := (p.isPopulated .hull != p.isPopulated .domain).toNat

/-- A hull shader that writes another number of control points than the domain shader reads. -/
def patchViolations : Nat :=
  match p.shader? t .hull, p.shader? t .domain with
  | some hull, some domain =>
    (hull.attributeValue .outputVertices != domain.attributeValue .inputVertices).toNat
  | _, _ => 0

/-- More inputs than there are outputs, and every input whose output is of another type or array
size. -/
def linkageViolations (writer reader : Function) : Nat :=
  (decide (writer.outputs.length < reader.inputs.length)).toNat +
    ((reader.inputs.zip writer.outputs).map fun pair =>
      (pair.1.type != pair.2.type || pair.1.arraySize != pair.2.arraySize).toNat).sum

/-- The violations between neighbours, if all populated graphics stages have shader functions. -/
def chainViolations : Nat :=
  let stages := Stage.graphics.filter p.isPopulated
  let functions := stages.filterMap (p.shader? t)
  if stages.all fun stage => (p.shader? t stage).isSome then
    ((functions.zip functions.tail).map fun pair => linkageViolations pair.1 pair.2).sum
  else 0

/-- Everything that is wrong with a program whose name is free. -/
def violationCount (options : LinkOptions) : Nat :=
  ((p.annotation.map fun a => repeatedEntries a.entries).getD 0) + p.invalidRows.length +
    p.bindingViolations t + p.renderStateViolations t + p.functionViolations t +
    (if options.interfaceValidation then
      p.pairViolations + p.patchViolations t + p.chainViolations t
    else 0)

/-- The names of programs are no use to a program. -/
theorem violationCount_congr {t t' : SymbolTable} (h : t.Agrees t') (options : LinkOptions) :
    p.violationCount t options = p.violationCount t' options := by
  have hprototype := SymbolTable.view?_congr h Symbol.prototype? fun _ => rfl
  have himplementation := SymbolTable.view?_congr h Symbol.implementation? fun _ => rfl
  have hstate := SymbolTable.view?_congr h Symbol.renderState? fun _ => rfl
  have hshader : p.shader? t = p.shader? t' := by
    funext stage
    simp only [shader?, SymbolTable.view?_congr h Symbol.shader? fun _ => rfl]
  simp only [violationCount, bindingViolations, renderStateViolations, functionViolations,
    patchViolations, chainViolations, hprototype, himplementation, hstate, hshader]

/-- The keys that are reported are those of the entries that come too late. -/
theorem length_repeatedKeys (done rest : List AnnotationEntry) {earlier : List String}
    (h : ∀ key, key ∈ earlier ↔ ∃ d ∈ done, d.key = key) :
    (repeatedKeys earlier rest).length = (rest.zipIdx done.length).countP fun e =>
      ((done ++ rest).take e.2).any fun d => d.key == e.1.key := by
  -- `earlier` holds the keys of the entries that are done, in another order and each once
  induction rest generalizing earlier done with
  | nil => rfl
  | cons e rest ih =>
    have hmore {seen : List String} (hseen : ∀ key, key ∈ seen ↔ key ∈ earlier ∨ e.key = key) :
        (repeatedKeys seen rest).length = (rest.zipIdx (done.length + 1)).countP fun e' =>
          ((done ++ e :: rest).take e'.2).any fun d => d.key == e'.1.key := by
      have hlater : (repeatedKeys seen rest).length = _ := ih (done ++ [e]) fun key => by
        rw [hseen, h]
        simp only [List.mem_append, List.mem_singleton, or_and_right, exists_or, exists_eq_left]
      rw [List.length_append, List.length_singleton, List.append_assoc, List.singleton_append] at hlater
      exact hlater
    have hfirst : (((done ++ e :: rest).take done.length).any fun d => d.key == e.key) =
        earlier.contains e.key := by
      rw [List.take_left, Bool.eq_iff_iff, List.any_eq_true, List.contains_iff_mem, h]
      simp only [beq_iff_eq]
    rw [List.zipIdx_cons, List.countP_cons, hfirst, repeatedKeys]
    cases hseen : earlier.contains e.key with
    | true =>
      have hkeys (key : String) : key ∈ earlier ↔ key ∈ earlier ∨ e.key = key := by
        refine ⟨Or.inl, fun hkey => hkey.elim id fun he => ?_⟩
        rw [← he]
        exact List.contains_iff_mem.mp hseen
      rw [if_pos rfl, if_pos rfl, List.length_cons, hmore hkeys]
    | false =>
      have hkeys (key : String) : key ∈ e.key :: earlier ↔ key ∈ earlier ∨ e.key = key := by
        rw [List.mem_cons, Or.comm, eq_comm]
      rw [if_neg Bool.false_ne_true, if_neg Bool.false_ne_true]
      exact (hmore hkeys).trans (Nat.add_zero _).symm

theorem faults_annotationFaults :
    Faults p.annotationFaults ((p.annotation.map fun a => repeatedEntries a.entries).getD 0) := by
  unfold annotationFaults
  cases p.annotation with
  | none => exact faults_nil
  | some a =>
    have hlength : (repeatedKeys [] a.entries).length = repeatedEntries a.entries :=
      length_repeatedKeys [] a.entries (by simp)
    dsimp only [Option.map_some, Option.getD_some]
    rw [← hlength]
    exact faults_map (fun _ _ => rfl) fun _ _ => rfl

theorem faults_rowFaults : Faults p.rowFaults p.invalidRows.length := faults_map (fun _ _ => rfl) fun _ _ => rfl

theorem faults_interfaceFaults (l : Location) (n : String) :
    Faults (interfaceFaults t l n) (t.view? Symbol.prototype? n).isNone.toNat := by
  unfold interfaceFaults SymbolTable.view?
  cases t.get? n with
  | none => exact faults_singleton rfl rfl
  | some s =>
    cases s with
    | global v =>
      change Faults (if v.isPrototype then [] else _) (if v.isPrototype then some v else none).isNone.toNat
      cases v.isPrototype with
      | true => exact faults_nil
      | false => exact faults_singleton rfl rfl
    | _ => exact faults_singleton rfl rfl

theorem faults_implementationFaults (l : Location) (n : String) :
    Faults (implementationFaults t l n) (t.view? Symbol.implementation? n).isNone.toNat := by
  unfold implementationFaults SymbolTable.resolveSubroutine SymbolTable.resolveAs SymbolTable.view?
  cases t.get? n with
  | none => exact faults_singleton rfl rfl
  | some s =>
    cases s with
    | subroutine r =>
      simp only [Symbol.subroutine?, Symbol.implementation?, Option.bind_some]
      by_cases hk : r.kind = .implementation
      · rw [if_pos hk, if_pos hk]
        exact faults_nil
      · rw [if_neg hk, if_neg hk]
        exact faults_singleton rfl rfl
    | _ => exact faults_singleton rfl rfl

/-- What is reported stage by stage, for the populated stages alone. -/
theorem faults_stages {faults : Stage → List Diagnostic} {count : Stage → Nat}
    (hvacant : ∀ stage, p.slot stage = none → faults stage = [])
    (hpopulated : ∀ stage slot, p.slot stage = some slot → Faults (faults stage) (count stage)) :
    Faults (Stage.all.flatMap faults) (p.populated.map count).sum := by
  unfold populated
  -- over any list of stages: a vacant one is filtered out on the one side and silent on the other
  induction Stage.all with
  | nil => exact faults_nil
  | cons stage stages ih =>
    rw [List.flatMap_cons]
    cases hslot : p.slot stage with
    | none =>
      have hp : ¬p.isPopulated stage = true := Bool.eq_false_iff.mp (slot_eq_none.mp hslot)
      rw [hvacant stage hslot, List.filter_cons_of_neg hp]
      exact ih
    | some slot =>
      obtain ⟨rfl, hp⟩ := slot_eq_some.mp hslot
      have hp : p.isPopulated stage = true := hp
      rw [List.filter_cons_of_pos hp, List.map_cons, List.sum_cons]
      exact (hpopulated stage _ hslot).append ih

theorem faults_bindingFaults : Faults (p.bindingFaults t) (p.bindingViolations t) := by
  unfold bindingFaults bindingViolations PerStage.toList stages
  rw [List.flatMap_map]
  refine p.faults_stages (fun stage hslot => ?_) fun stage slot hslot => ?_
  · rw [PerStage.get_ofFn, hslot]
  · rw [PerStage.get_ofFn, hslot, (slot_eq_some.mp hslot).1]
    exact faults_flatMap fun b _ =>
      (faults_interfaceFaults t _ b.1).append (faults_implementationFaults t _ b.2)

theorem faults_renderStateFaults :
    Faults (p.renderStateFaults t) (p.renderStateViolations t) := by
  unfold renderStateFaults renderStateViolations
  cases p.renderState with
  | none => exact faults_singleton rfl rfl
  | some row =>
    simp only [SymbolTable.resolveRenderState, SymbolTable.resolveAs, SymbolTable.view?,
      Option.bind_some]
    cases t.get? row.name with
    | none => exact faults_singleton rfl rfl
    | some s =>
      cases s with
      | renderState r => exact faults_nil
      | _ => exact faults_singleton rfl rfl

/-- A stage has a shader function or one fault. -/
theorem stageFunction_cases (stage : Stage) (slot : StageSlot) :
    (∃ f, stageFunction t stage slot = .ok f ∧ t.view? Symbol.shader? slot.function = some f) ∨
    ∃ fault, stageFunction t stage slot = .error fault ∧ fault.severity = .error ∧
      fault.code.ofChecking = true ∧ t.view? Symbol.shader? slot.function = none := by
  unfold stageFunction SymbolTable.resolveFunction SymbolTable.resolveAs SymbolTable.view?
  cases t.get? slot.function with
  | none => exact Or.inr ⟨_, rfl, rfl, rfl, rfl⟩
  | some s =>
    cases s with
    | function f =>
      simp only [Symbol.function?, Symbol.shader?, Option.bind_some]
      by_cases hf : f.isShader = true
      · rw [if_pos hf, if_pos hf]
        exact Or.inl ⟨f, rfl, rfl⟩
      · rw [if_neg hf, if_neg hf]
        exact Or.inr ⟨_, rfl, rfl, rfl, rfl⟩
    | _ => exact Or.inr ⟨_, rfl, rfl, rfl, rfl⟩

theorem faults_functionFaults : Faults (p.functionFaults t) (p.functionViolations t) := by
  unfold functionFaults functionViolations
  refine p.faults_stages (fun stage hslot => ?_) fun stage slot hslot => ?_
  · rw [hslot]
  · rw [hslot, shader?, hslot, Option.bind_some]
    rcases stageFunction_cases t stage slot with ⟨f, hf, hview⟩ | ⟨fault, hf, herror, hcode, hview⟩
    · simp only [hf, hview]
      exact faults_nil
    · simp only [hf, hview]
      exact faults_singleton herror hcode

theorem get_functions (stage : Stage) : (p.functions t).get stage = p.shader? t stage := by
  unfold functions shader?
  rw [PerStage.get_ofFn]
  congr 1
  funext slot
  rcases stageFunction_cases t stage slot with ⟨f, hf, hview⟩ | ⟨fault, hf, -, -, hview⟩
  · rw [hf, hview]
    rfl
  · rw [hf, hview]
    rfl

theorem faults_pairFaults : Faults p.pairFaults p.pairViolations := by
  have hpopulated (stage : Stage) : p.isPopulated stage = (p.slot stage).isSome := by
    unfold slot
    cases p.isPopulated stage <;> rfl
  unfold pairFaults pairViolations
  rw [hpopulated, hpopulated]
  cases p.slot .hull with
  | none =>
    cases p.slot .domain with
    | none => exact faults_nil
    | some slot => exact faults_singleton rfl rfl
  | some slot =>
    cases p.slot .domain with
    | none => exact faults_singleton rfl rfl
    | some slot => exact faults_nil

theorem faults_patchFaults : Faults (patchFaults (p.functions t)) (p.patchViolations t) := by
  have hhull : (p.functions t).hull = p.shader? t .hull := p.get_functions t .hull
  have hdomain : (p.functions t).domain = p.shader? t .domain := p.get_functions t .domain
  unfold patchFaults patchViolations
  rw [hhull, hdomain]
  cases p.shader? t .hull with
  | none => exact faults_nil
  | some hull =>
    cases p.shader? t .domain with
    | none => exact faults_nil
    | some domain =>
      dsimp only
      by_cases h : hull.attributeValue .outputVertices = domain.attributeValue .inputVertices
      · rw [if_pos h, bne_eq_false_iff_eq.mpr h]
        exact faults_nil
      · rw [if_neg h, bne_iff_ne.mpr h]
        exact faults_singleton rfl rfl

theorem faults_linkageFaults (producer consumer : Stage × Function) :
    Faults (linkageFaults producer consumer) (linkageViolations producer.2 consumer.2) := by
  unfold linkageFaults linkageViolations
  refine Faults.append ?_ (faults_flatMap fun pair _ => ?_)
  · by_cases h : producer.2.outputs.length < consumer.2.inputs.length
    · rw [if_pos h, decide_eq_true h]
      exact faults_singleton rfl rfl
    · rw [if_neg h, decide_eq_false h]
      exact faults_nil
  · have hbad : (pair.1.type != pair.2.type || pair.1.arraySize != pair.2.arraySize) =
        !pair.1.compatible pair.2 := (Bool.not_and _ _).symm
    rw [hbad]
    exact faults_unless rfl rfl

/-- The chain is there if every stage has a function, and then holds all of them in order. -/
theorem mapM_link (link : Stage → Option Function) (stages : List Stage) :
    (stages.mapM fun stage => (link stage).map fun f => (stage, f)) =
      if stages.all fun stage => (link stage).isSome then
        some (stages.filterMap fun stage => (link stage).map fun f => (stage, f))
      else none := by
  induction stages with
  | nil => rfl
  | cons stage stages ih =>
    rw [List.mapM_cons, ih, List.all_cons, List.filterMap_cons]
    cases link stage with
    | none => rfl
    | some f =>
      cases stages.all fun stage => (link stage).isSome with
      | true => rfl
      | false => rfl

theorem faults_chainFaults : Faults (p.chainFaults (p.functions t)) (p.chainViolations t) := by
  unfold chainFaults chainViolations chain
  rw [show (p.functions t).get = p.shader? t from funext (p.get_functions t), mapM_link]
  dsimp only
  generalize Stage.graphics.filter p.isPopulated = stages
  cases stages.all fun stage => (p.shader? t stage).isSome with
  | false => exact faults_nil
  | true =>
    -- the functions alone decide: the stages only appear in the messages
    let links := stages.filterMap fun stage => (p.shader? t stage).map fun f => (stage, f)
    have hlinks : stages.filterMap (p.shader? t) = links.map Prod.snd := by
      rw [List.map_filterMap]
      congr 1
      funext stage
      cases p.shader? t stage <;> rfl
    rw [if_pos rfl, if_pos rfl, hlinks, ← List.map_tail, List.zip_map, List.map_map]
    exact faults_flatMap fun pair _ => faults_linkageFaults pair.1 pair.2

theorem faults_violations (options : LinkOptions) :
    Faults (p.violations t options) (p.violationCount t options) := by
  have hinterfaces : Faults
      (if options.interfaceValidation then
        p.pairFaults ++ patchFaults (p.functions t) ++ p.chainFaults (p.functions t) else [])
      (if options.interfaceValidation then
        p.pairViolations + p.patchViolations t + p.chainViolations t else 0) := by
    cases options.interfaceValidation with
    | true => exact (p.faults_pairFaults.append (p.faults_patchFaults t)).append (p.faults_chainFaults t)
    | false => exact faults_nil
  have hall := ((((p.faults_annotationFaults.append p.faults_rowFaults).append
    (p.faults_bindingFaults t)).append (p.faults_renderStateFaults t)).append
    (p.faults_functionFaults t)).append hinterfaces
  -- naming the program in the faults changes neither their number nor their kind
  exact ⟨(List.length_map _).trans hall.length, List.forall_mem_map.mpr hall.severity,
    List.forall_mem_map.mpr hall.code⟩

theorem faults_validate (options : LinkOptions) :
    Faults (p.validate t options).faults
      (if t.contains p.name then 1 else p.violationCount t options) := by
  unfold SymbolTable.contains
  cases hname : t.get? p.name with
  | some s =>
    rw [validate_taken hname]
    exact faults_singleton rfl rfl
  | none =>
    -- the program is checked after its own name has been entered
    have hagrees : t.Agrees (p.entered t) :=
      (SymbolTable.AddsPrograms.refl t).agrees addsPrograms_entered
    rw [validate_fresh hname, p.violationCount_congr hagrees]
    exact p.faults_violations _ options

/-- Validation of a program reports one error if its name is taken. Otherwise it reports as many errors
as the program has violations, with the names that were declared before it. A queue that keeps
everything gains just these errors, and the program passes if there are none. -/
theorem validate_reports (options : LinkOptions) {q : Queue} (hq : q.config = .unlimited) :
    let faults := (p.validate t options).faults
    let n := if t.contains p.name then 1 else p.violationCount t options
    (faults.length = n ∧ ∀ d ∈ faults, d.severity = .error) ∧
    q.addAll faults = { q with kept := q.kept ++ faults, errors := q.errors + n } ∧
    (faults.isEmpty = true ↔ n = 0) := by
  intro faults n
  have hfaults : Faults faults n := p.faults_validate t options
  refine ⟨⟨hfaults.length, hfaults.severity⟩, Queue.addAll_faults hq hfaults, ?_⟩
  rw [List.isEmpty_iff, ← List.length_eq_zero_iff, hfaults.length]

def rubble : Location := ⟨"ruin.json", 1⟩

/-- A shader that writes and reads parameters of the given names and kinds. -/
def masonry (name : String) (written read : List (String × Kind)) : Function :=
  let parameter (direction : Direction) (p : String × Kind) : Parameter :=
    ⟨p.1, .builtin p.2, none, rubble, direction, none, none⟩
  { name, location := rubble, returnType := .builtin .void
    parameters := written.map (parameter .output) ++ read.map (parameter .input)
    isShader := true, attributes := .none, code := "" }

/-- The variable is no prototype and the subroutine no implementation. The arch reads more than the wall
writes, and another type. -/
def ruinSymbols : SymbolTable :=
  ⟨[.global ⟨"moss", rubble, .builtin .float, none, false⟩,
    .subroutine ⟨"damp", rubble, .signature⟩,
    .function (masonry "wall" [("height", .float)] []),
    .function (masonry "arch" [] [("height", .float2), ("span", .float)])]⟩

/-- A key comes three times, a row has no meaning, there is no render state and no hull shader. -/
def ruin : Program :=
  .ofDecl
    { name := "Ruin", location := rubble
      rows := [⟨"VertexShader", "wall", .ofList [("moss", "damp")], rubble⟩,
        ⟨"DomainShader", "arch", ∅, rubble⟩, ⟨"RoofShader", "sky", ∅, rubble⟩]
      annotation := some ⟨rubble, [⟨"years", .uint 900⟩, ⟨"years", .uint 901⟩, ⟨"lord", .text "Odo"⟩,
        ⟨"years", .uint 902⟩]⟩ }

/-- The ruin is reported with all nine of its violations, but with one alone where its name is taken. -/
theorem validate_reports_ruin :
    (ruin.validate ruinSymbols .standard).faults.length = 9 ∧
    (ruin.validate (ruin.entered ruinSymbols) .standard).faults.length = 1 := by
  have hcount : ruin.violationCount ruinSymbols .standard = 9 := by decide
  have hfirst := ruin.validate_reports ruinSymbols .standard (q := .empty .unlimited) rfl
  have hagain := ruin.validate_reports (ruin.entered ruinSymbols) .standard (q := .empty .unlimited) rfl
  refine ⟨?_, hagain.1.1⟩
  rw [← hcount]
  exact hfirst.1.1

end Program

end EffectLink
