import EffectLink.Linker

namespace EffectLink

namespace Program

variable {pool pool' : Pool} {p q : Program}

/-- `q` is `p` with other ids, which stand for the same shaders in another pool. -/
structure Renumbers (pool pool' : Pool) (p q : Program) : Prop where
  frame : q = { p with slots := q.slots }
  slots : ∀ stage, q.slots.get stage = { p.slots.get stage with shader := (q.slots.get stage).shader }
  shaders : ∀ stage,
    (q.slots.get stage).shader.bind pool'.get? = (p.slots.get stage).shader.bind pool.get?

theorem Renumbers.isPopulated_eq (h : Renumbers pool pool' p q) (stage : Stage) :
    q.isPopulated stage = p.isPopulated stage := by
  have hpopulated := congrArg StageSlot.populated (h.slots stage)
  exact hpopulated

theorem Renumbers.slot_eq (h : Renumbers pool pool' p q) (stage : Stage) :
    q.slot stage =
      (p.slot stage).map fun found => { found with shader := (q.slots.get stage).shader } := by
  unfold slot
  rw [h.isPopulated_eq]
  split
  · exact congrArg some (h.slots stage)
  · rfl

/-- What one stage gets from the backend goes to the same place in both programs. -/
theorem Renumbers.setSlot (h : Renumbers pool pool' p q) (stage : Stage) (words : List UInt32) :
    Renumbers pool pool' (p.setSlot stage { p.slots.get stage with binary := words })
      (q.setSlot stage { q.slots.get stage with binary := words }) := by
  refine ⟨?_, fun s => ?_, fun s => ?_⟩
  · have hframe := congrArg
      (fun r : Program => r.setSlot stage { q.slots.get stage with binary := words }) h.frame
    exact hframe
  · by_cases hs : s = stage
    · subst hs
      rw [slots_setSlot_self, slots_setSlot_self]
      exact congrArg (fun found : StageSlot => { found with binary := words }) (h.slots s)
    · rw [slots_setSlot_of_ne _ hs, slots_setSlot_of_ne _ hs]
      exact h.slots s
  · by_cases hs : s = stage
    · subst hs
      rw [slots_setSlot_self, slots_setSlot_self]
      exact h.shaders s
    · rw [slots_setSlot_of_ne _ hs, slots_setSlot_of_ne _ hs]
      exact h.shaders s

theorem Renumbers.withReflection (h : Renumbers pool pool' p q) (live : LiveSet) :
    Renumbers pool pool' { p with reflection := p.reflection.addLive live }
      { q with reflection := q.reflection.addLive live } := by
  refine ⟨?_, h.slots, h.shaders⟩
  exact congrArg (fun r : Program => { r with reflection := r.reflection.addLive live }) h.frame

variable {U : Type}

/-- The compiled form of the shader that a stage holds. -/
theorem bind_units (unit : Shader → Option U) (pool : Pool) (shader : Option Nat) :
    (shader.bind fun id => (pool.shaders.map unit)[id]?) = (shader.bind pool.get?).map unit := by
  cases shader with
  | none => rfl
  | some id => exact List.getElem?_map

theorem Renumbers.stageUnits_eq (h : Renumbers pool pool' p q) (unit : Shader → Option U)
    (stages : List Stage) :
    q.stageUnits (pool'.shaders.map unit) stages = p.stageUnits (pool.shaders.map unit) stages := by
  have hname : q.name = p.name := by rw [h.frame]
  induction stages with
  | nil => rfl
  | cons stage rest ih =>
    unfold stageUnits
    rw [h.slot_eq, ih, hname]
    cases hslot : p.slot stage with
    | none => rfl
    | some found =>
      have hshader : (q.slots.get stage).shader.bind pool'.get? = found.shader.bind pool.get? := by
        rw [h.shaders, (slot_eq_some.mp hslot).1]
      simp only [Option.map_some, bind_units, hshader]

end Program

/-- Two outcomes of linking that differ in shader ids only. -/
structure BackendLinked.Renumbers (pool pool' : Pool) (r r' : BackendLinked) : Prop where
  program : r.program.Renumbers pool pool' r'.program
  diagnostics : r'.diagnostics = r.diagnostics
  ok : r'.ok = r.ok

namespace Program

variable {pool pool' : Pool} {p q : Program} {U : Type}

theorem addBinary_renumbers {r r' : BackendLinked} (h : r.Renumbers pool pool' r')
    (binary : Stage → Except String (List UInt32)) (stage : Stage) :
    (addBinary binary r stage).Renumbers pool pool' (addBinary binary r' stage) := by
  have hname : r'.program.name = r.program.name := by rw [h.program.frame]
  unfold addBinary
  rw [h.program.slot_eq, hname, h.diagnostics]
  cases hslot : r.program.slot stage with
  | none => exact h
  | some found =>
    cases hbinary : binary stage with
    | error log => exact ⟨h.program, rfl, rfl⟩
    | ok words =>
      have hfound : r.program.slots.get stage = found := (slot_eq_some.mp hslot).1
      have hset := h.program.setSlot stage words
      rw [h.program.slots stage, hfound] at hset
      exact ⟨hset, rfl, h.ok⟩

theorem foldl_addBinary_renumbers {r r' : BackendLinked} (h : r.Renumbers pool pool' r')
    (binary : Stage → Except String (List UInt32)) (stages : List Stage) :
    (stages.foldl (addBinary binary) r).Renumbers pool pool'
      (stages.foldl (addBinary binary) r') := by
  induction stages generalizing r r' with
  | nil => exact h
  | cons stage rest ih => exact ih (addBinary_renumbers h binary stage)

theorem Renumbers.linkAndReflect (h : Renumbers pool pool' p q) (backend : Backend U)
    (unit : Shader → Option U) (binaries : Bool) :
    (p.linkAndReflect backend (pool.shaders.map unit) binaries).Renumbers pool pool'
      (q.linkAndReflect backend (pool'.shaders.map unit) binaries) := by
  have hname : q.name = p.name := by rw [h.frame]
  have hfault (code : Code) (message log : String) :
      q.linkFault code message log = p.linkFault code message log := by
    have hlocation : q.location = p.location := by rw [h.frame]
    rw [linkFault, linkFault, hname, hlocation]
  unfold Program.linkAndReflect
  rw [h.stageUnits_eq, congrArg backend.link hname, congrArg backend.reflect hname,
    congrArg backend.binary hname]
  cases p.stageUnits (pool.shaders.map unit) Stage.all with
  | error faults => exact ⟨h, rfl, rfl⟩
  | ok stages =>
    dsimp only
    cases backend.link p.name stages with
    | error log =>
      refine ⟨h, ?_, rfl⟩
      dsimp only
      rw [hfault, hname]
    | ok _ =>
      dsimp only
      cases backend.reflect p.name stages with
      | error log =>
        refine ⟨h, ?_, rfl⟩
        dsimp only
        rw [hfault, hname]
      | ok live =>
        have hlive (calls calls' : List ObjectCall) :
            (⟨{ p with reflection := p.reflection.addLive live }, [], true, calls⟩ :
              BackendLinked).Renumbers pool pool'
              ⟨{ q with reflection := q.reflection.addLive live }, [], true, calls'⟩ :=
          ⟨h.withReflection live, rfl, rfl⟩
        dsimp only
        cases binaries with
        | false => exact hlive _ _
        | true =>
          rw [if_pos rfl, if_pos rfl]
          exact foldl_addBinary_renumbers (hlive _ _) _ _

/-- The compiled shaders of a pool, as far as the target needs any. -/
def unitsOf (unit : Shader → Option U) (header : Header) (pool : Pool) : List (Option U) :=
  if (Strategy.ofHeader header).needsUnits then pool.shaders.map unit else []

theorem Renumbers.linkWith (h : Renumbers pool pool' p q) (backend : Backend U)
    (unit : Shader → Option U) (header : Header) :
    (p.linkWith backend (unitsOf unit header pool) header).Renumbers pool pool'
      (q.linkWith backend (unitsOf unit header pool') header) := by
  unfold Program.linkWith unitsOf
  cases Strategy.ofHeader header with
  | portable => exact h.linkAndReflect backend unit true
  | reflect => exact h.linkAndReflect backend unit false
  | stub => exact ⟨h, rfl, rfl⟩
  | unsupported =>
    have hname : q.name = p.name := by rw [h.frame]
    have hlocation : q.location = p.location := by rw [h.frame]
    refine ⟨h, ?_, rfl⟩
    dsimp only
    rw [hname, hlocation]

theorem Renumbers.record_eq (h : Renumbers pool pool' p q) :
    Record.ofProgram q pool' = Record.ofProgram p pool := by
  have hfunction (stage : Stage) : q.pooledFunction pool' stage = p.pooledFunction pool stage := by
    rw [pooledFunction_eq, pooledFunction_eq, h.shaders]
  have hstage (stage : Stage) :
      StageRecord.ofSlot (q.slots.get stage) = StageRecord.ofSlot (p.slots.get stage) := by
    rw [h.slots]
    rfl
  unfold Record.ofProgram
  simp only [hfunction, hstage, h.isPopulated_eq]
  rw [h.frame]

/-- The artifact does not show the ids. -/
theorem Renumbers.artifact_eq (h : Renumbers pool pool' p q) :
    q.artifact pool' = p.artifact pool :=
  congrArg Record.encode h.record_eq

end Program

end EffectLink
