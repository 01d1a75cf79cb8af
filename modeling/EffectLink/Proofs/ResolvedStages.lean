import EffectLink.Proofs.ProgramValidity
import EffectLink.Proofs.ShaderIdentity
import EffectLink.Proofs.ShaderPool

namespace EffectLink

/-- The bindings that are built into the shader of a stage. -/
def Header.builtIn (header : Header) (bindings : KeyMap String) : KeyMap String :=
  if header.switches.staticBindings then bindings else ∅

/-- The bindings that stay with the program. -/
def Header.leftOver (header : Header) (bindings : KeyMap String) : KeyMap String :=
  if header.switches.staticBindings then ∅ else bindings

namespace Program

/-- The shader that a stage asks the pool for. -/
def requested (p : Program) (header : Header) (stage : Stage) (slot : StageSlot) (f : Function) :
    Shader :=
  { stage
    identity := shaderIdentity f.name (header.builtIn slot.bindings)
    function := f
    compileFlags := p.compileFlags
    bindings := header.builtIn slot.bindings }

/-- A shader that some stage of the program asks for. -/
def Requests (symbols : SymbolTable) (header : Header) (p : Program) (shader : Shader) : Prop :=
  ∃ stage slot f, p.slot stage = some slot ∧
    symbols.get? slot.function = some (.function f) ∧ shader = p.requested header stage slot f

/-- What a stage holds once it has its shader: the slot as it was, with the identity, the bindings that
are left, and the id of a shader with the key that was asked for. -/
def Settled (symbols : SymbolTable) (header : Header) (p : Program) (pool : Pool) (stage : Stage)
    (before after : StageSlot) : Prop :=
  ∃ f id found, symbols.get? before.function = some (.function f) ∧
    after = { before with
      shaderName := (p.requested header stage before f).identity
      bindings := header.leftOver before.bindings
      shader := some id } ∧
    pool.get? id = some found ∧ found.SameKey (p.requested header stage before f)

theorem Settled.mono {symbols : SymbolTable} {header : Header} {p : Program} {pool later : Pool}
    {stage : Stage} {before after : StageSlot} (hpool : pool.Extends later)
    (h : p.Settled symbols header pool stage before after) :
    p.Settled symbols header later stage before after := by
  obtain ⟨f, id, found, hf, hafter, hfound, hkey⟩ := h
  exact ⟨f, id, found, hf, hafter, hpool.get? hfound, hkey⟩

theorem resolveStage_of_none {symbols : SymbolTable} {header : Header} {r : Resolved} {stage : Stage}
    (h : r.program.slot stage = none) : resolveStage symbols header r stage = r := by
  unfold resolveStage
  rw [h]

/-- The warning about flags that a pooled shader was not built with. -/
def flagWarnings (p : Program) (pool : Pool) (slot : StageSlot) (request : Shader) :
    List Diagnostic :=
  match pool.find? request.stage request.identity with
  | some pooled =>
    if pooled.compileFlags = p.compileFlags then []
    else [p.flagWarning request.stage request.identity slot.location pooled]
  | none => []

theorem of_mem_flagWarnings {p : Program} {pool : Pool} {slot : StageSlot} {request : Shader}
    {d : Diagnostic} (h : d ∈ p.flagWarnings pool slot request) :
    d.code = .conflictingFlags ∧ d.isError = false := by
  unfold flagWarnings at h
  split at h
  · split at h
    · exact absurd h List.not_mem_nil
    · rw [List.mem_singleton.mp h]
      exact ⟨rfl, rfl⟩
  · exact absurd h List.not_mem_nil

theorem resolveStage_of_some {symbols : SymbolTable} {header : Header} {r : Resolved} {stage : Stage}
    {slot : StageSlot} {f : Function} (hslot : r.program.slot stage = some slot)
    (hf : stageFunction symbols stage slot = .ok f) :
    resolveStage symbols header r stage =
      let request := r.program.requested header stage slot f
      { program := r.program.setSlot stage
          { slot with
            shaderName := request.identity
            bindings := header.leftOver slot.bindings
            shader := some (r.pool.intern request).2 }
        pool := (r.pool.intern request).1
        diagnostics := r.diagnostics ++ r.program.flagWarnings r.pool slot request
        ok := r.ok } := by
  unfold resolveStage
  rw [hslot]
  dsimp only
  rw [hf]
  rfl

/-- What has been done when the stages in `done` have their shaders. -/
structure Resolving (symbols : SymbolTable) (header : Header) (p : Program) (pool : Pool)
    (done : List Stage) (r : Resolved) : Prop where
  frame : r.program = { p with slots := r.program.slots }
  ok : r.ok = true
  grows : pool.Extends r.pool
  distinct : pool.Distinct → r.pool.Distinct
  members : ∀ a ∈ r.pool.shaders, a ∈ pool.shaders ∨ p.Requests symbols header a
  warnings : ∀ d ∈ r.diagnostics, d.code = .conflictingFlags ∧ d.isError = false
  settled : ∀ stage ∈ done, ∀ slot, p.slot stage = some slot →
    p.Settled symbols header r.pool stage slot (r.program.slots.get stage)
  untouched : ∀ stage, stage ∉ done ∨ p.slot stage = none →
    r.program.slots.get stage = p.slots.get stage

theorem resolving_nil (symbols : SymbolTable) (header : Header) (p : Program) (pool : Pool) :
    p.Resolving symbols header pool [] ⟨p, pool, [], true⟩ where
  frame := rfl
  ok := rfl
  grows := Pool.Extends.refl pool
  distinct := id
  members := fun _ ha => Or.inl ha
  warnings := fun _ hd => absurd hd List.not_mem_nil
  settled := fun _ hs => absurd hs List.not_mem_nil
  untouched := fun _ _ => rfl

/-- One more stage gets its shader. -/
theorem Resolving.step {symbols : SymbolTable} {header : Header} {p : Program} {pool : Pool}
    {done : List Stage} {r : Resolved} {stage : Stage} (hr : p.Resolving symbols header pool done r)
    (hp : p.Resolvable symbols) (hstage : stage ∉ done) :
    p.Resolving symbols header pool (stage :: done) (resolveStage symbols header r stage) := by
  have hsame : r.program.slots.get stage = p.slots.get stage := hr.untouched stage (Or.inl hstage)
  have hslots : r.program.slot stage = p.slot stage := slot_congr hsame
  cases hslot : p.slot stage with
  | none =>
    -- nothing is done for the stage, so the stages that are settled are those of before
    rw [resolveStage_of_none (hslots.trans hslot)]
    refine { hr with settled := ?_, untouched := ?_ }
    · intro s hs slot hs'
      rcases List.mem_cons.mp hs with rfl | hs
      · rw [hslot] at hs'
        contradiction
      · exact hr.settled s hs slot hs'
    · intro s hs
      refine hr.untouched s (hs.imp_left fun hno hmem => hno (List.mem_cons_of_mem _ hmem))
  | some slot =>
    obtain ⟨f, hf, hshader⟩ := hp.functions stage slot hslot
    have hfunction : stageFunction symbols stage slot = .ok f := stageFunction_eq_ok.mpr ⟨hf, hshader⟩
    have hflags : r.program.compileFlags = p.compileFlags := by rw [hr.frame]
    have hrequest : r.program.requested header stage slot f = p.requested header stage slot f := by
      unfold requested
      rw [hflags]
    rw [resolveStage_of_some (hslots.trans hslot) hfunction, hrequest]
    have hgrows := r.pool.extends_intern (p.requested header stage slot f)
    refine
      { frame := congrArg (fun q : Program => q.setSlot stage _) hr.frame
        ok := hr.ok
        grows := hr.grows.trans hgrows
        distinct := fun h => (hr.distinct h).intern _
        members := ?_
        warnings := ?_
        settled := ?_
        untouched := ?_ }
    · intro a ha
      rcases Pool.mem_intern ha with ha | rfl
      · exact hr.members a ha
      · exact Or.inr ⟨stage, slot, f, hslot, hf, rfl⟩
    · intro d hd
      exact (List.mem_append.mp hd).elim (hr.warnings d) of_mem_flagWarnings
    · intro s hs slot' hs'
      by_cases heq : s = stage
      · subst heq
        rw [hslot] at hs'
        cases hs'
        obtain ⟨found, hfound, hkey⟩ := r.pool.get?_intern (p.requested header s slot f)
        refine ⟨f, _, found, hf, ?_, hfound, hkey⟩
        exact slots_setSlot_self _ _ _
      · -- interning adds at the end, so the ids of the stages before find what they found
        have hold := hr.settled s ((List.mem_cons.mp hs).resolve_left heq) slot' hs'
        dsimp only
        rw [slots_setSlot_of_ne _ heq]
        exact hold.mono hgrows
    · intro s hs
      have hne : s ≠ stage := by
        rintro rfl
        rcases hs with hs | hs
        · exact hs List.mem_cons_self
        · rw [hslot] at hs
          contradiction
      rw [slots_setSlot_of_ne _ hne]
      exact hr.untouched s (hs.imp_left fun hno hmem => hno (List.mem_cons_of_mem _ hmem))

/-- A program whose functions are all declared gets all its shaders. -/
theorem resolving_resolve {symbols : SymbolTable} {p : Program} (header : Header) (pool : Pool)
    (hp : p.Resolvable symbols) :
    p.Resolving symbols header pool Stage.all.reverse (p.resolve symbols header pool) :=
  Stage.foldl_all (resolving_nil symbols header p pool) fun _ _ _ hstage hr => hr.step hp hstage

theorem Resolving.settled_all {symbols : SymbolTable} {header : Header} {p : Program} {pool : Pool}
    {r : Resolved} (hr : p.Resolving symbols header pool Stage.all.reverse r) {stage : Stage}
    {slot : StageSlot} (hslot : p.slot stage = some slot) :
    p.Settled symbols header r.pool stage slot (r.program.slots.get stage) :=
  hr.settled stage (List.mem_reverse.mpr stage.mem_all) slot hslot

/-- A populated stage that is done has a shader of the pool. -/
theorem Resolving.shader_of_mem {symbols : SymbolTable} {header : Header} {p : Program} {pool : Pool}
    {done : List Stage} {r : Resolved} (hr : p.Resolving symbols header pool done r) {stage : Stage}
    (hstage : stage ∈ done) {slot : StageSlot} (hslot : r.program.slot stage = some slot) :
    ∃ id found, slot.shader = some id ∧ r.pool.get? id = some found := by
  cases hbefore : p.slot stage with
  | none =>
    have hsame : r.program.slot stage = p.slot stage :=
      slot_congr (hr.untouched stage (Or.inr hbefore))
    rw [hsame, hbefore] at hslot
    contradiction
  | some before =>
    obtain ⟨f, id, found, -, hafter, hfound, -⟩ := hr.settled stage hstage before hbefore
    rw [(slot_eq_some.mp hslot).1] at hafter
    exact ⟨id, found, by rw [hafter], hfound⟩

end Program

end EffectLink
