import EffectLink.Proofs.BackendLinking
import EffectLink.Proofs.EarlyReports
import EffectLink.Proofs.StandaloneLink

/-! The two places that report an internal error are never reached: a validated program finds its
functions again, whatever programs come after it, and its shaders among the compiled ones. -/

namespace EffectLink

namespace Program

variable {U : Type} {p : Program}

/-- Every populated stage has a shader in the pool. -/
def Held (pool : Pool) (p : Program) : Prop :=
  ∀ stage slot, p.slot stage = some slot → ∃ id, slot.shader = some id ∧ id < pool.size

theorem Held.mono {pool later : Pool} (h : p.Held pool) (hpool : pool.Extends later) :
    p.Held later := by
  intro stage slot hslot
  obtain ⟨id, hid, hlt⟩ := h stage slot hslot
  have hfound : later.get? id = some (pool.shaders[id]) := hpool.get? (List.getElem?_eq_getElem hlt)
  exact ⟨id, hid, (List.getElem?_eq_some_iff.mp hfound).1⟩

theorem Resolving.held {symbols : SymbolTable} {header : Header} {pool : Pool} {r : Resolved}
    (hr : p.Resolving symbols header pool Stage.all.reverse r) : r.program.Held r.pool := by
  intro stage slot hslot
  obtain ⟨id, found, hid, hfound⟩ := hr.shader_of_mem (List.mem_reverse.mpr stage.mem_all) hslot
  exact ⟨id, hid, (List.getElem?_eq_some_iff.mp hfound).1⟩

/-- The compiled shaders have an entry for each shader of the pool. -/
theorem Held.supplied {pool : Pool} (h : p.Held pool) (unit : Shader → Option U) :
    p.Supplied (pool.shaders.map unit) := by
  intro stage slot hslot
  obtain ⟨id, hid, hlt⟩ := h stage slot hslot
  have hget : pool.get? id = some (pool.shaders[id]) := List.getElem?_eq_getElem hlt
  rw [unitAt, bind_units, hid, Option.bind_some, hget]
  rfl

theorem Supplied.code_linkAndReflect {units : List (Option U)} (h : p.Supplied units)
    (backend : Backend U) (binaries : Bool) :
    ∀ d ∈ (p.linkAndReflect backend units binaries).diagnostics, d.code ≠ .internalError := by
  rcases p.linkAndReflect_cases backend units binaries with
    ⟨faults, calls, hunits, hr⟩ | ⟨code, message, log, calls, hcode, hr⟩ |
      ⟨found, live, calls, -, -, -, hr⟩
  · rw [hr, h.stageUnits_error hunits]
    exact fun _ hd => absurd hd List.not_mem_nil
  · rw [hr]
    refine List.forall_mem_singleton.mpr ?_
    change code ≠ .internalError
    rcases hcode with rfl | rfl <;> decide
  · rw [hr]
    dsimp only
    split
    · intro d hd
      have htranslated := translating_all { p with reflection := p.reflection.addLive live }
        (backend.binary p.name found) calls
      rw [htranslated.codes d hd]
      decide
    · exact fun _ hd => absurd hd List.not_mem_nil

theorem code_linkWith {units : List (Option U)} (backend : Backend U) {header : Header}
    (h : (Strategy.ofHeader header).needsUnits = true → p.Supplied units) :
    ∀ d ∈ (p.linkWith backend units header).diagnostics, d.code ≠ .internalError := by
  unfold linkWith
  cases hstrategy : Strategy.ofHeader header with
  | portable => exact (h (by rw [hstrategy]; rfl)).code_linkAndReflect backend true
  | reflect => exact (h (by rw [hstrategy]; rfl)).code_linkAndReflect backend false
  | stub => exact fun _ hd => absurd hd List.not_mem_nil
  | unsupported =>
    refine List.forall_mem_singleton.mpr ?_
    change Code.noStrategy ≠ .internalError
    decide

end Program

namespace Linker

section Reports

variable {sort : Diagnostic → Prop} {q : Queue} {reports : List (List Diagnostic)}

theorem receives_reportInTurn (h : ∀ ds ∈ reports, ∀ d ∈ ds, sort d) :
    q.Receives sort (reportInTurn q reports) := by
  unfold reportInTurn
  induction reports generalizing q with
  | nil => exact .refl q
  | cons ds reports ih =>
    obtain ⟨hfirst, hrest⟩ := List.forall_mem_cons.mp h
    exact (Queue.receives_addAll hfirst).trans (ih hrest)

theorem receives_reportMerged (h : ∀ ds ∈ reports, ∀ d ∈ ds, sort d) :
    q.Receives sort (reportMerged q reports) := by
  -- all forks are made before the first of them is merged
  have hmerged (config : QueueConfig) :
      q.Receives sort ((reports.map fun ds => (Queue.empty config).addAll ds).foldl Queue.merge q) := by
    induction reports generalizing q with
    | nil => exact .refl q
    | cons ds reports ih =>
      obtain ⟨hfirst, hrest⟩ := List.forall_mem_cons.mp h
      have hfork : q.Receives sort (q.merge ((Queue.empty config).addAll ds)) :=
        .merge (.refl q) (Queue.receives_addAll hfirst)
      exact hfork.trans (ih hrest)
  exact hmerged q.config

theorem receives_linkAll {U : Type} (job : Job) (backend : Backend U) (units : List (Option U))
    {programs : List LinkedProgram} (s : Session)
    (h : ∀ linked ∈ programs, ∀ d ∈ (linkOne backend units job.header linked).2, sort d) :
    s.queue.Receives sort (linkAll job backend units programs s).1.queue := by
  have hreports : ∀ ds ∈ (programs.map (linkOne backend units job.header)).map (·.2),
      ∀ d ∈ ds, sort d := by
    rw [List.map_map]
    exact List.forall_mem_map.mpr h
  unfold linkAll
  dsimp only
  split
  · exact receives_reportMerged hreports
  · exact receives_reportInTurn hreports

/-- The linking of programs reports under codes of linking only. -/
theorem linking_linkAll {U : Type} (job : Job) (backend : Backend U) (units : List (Option U))
    (programs : List LinkedProgram) (s : Session) :
    s.queue.Receives (fun d => d.code.ofLinking = true)
      (linkAll job backend units programs s).1.queue := by
  apply receives_linkAll
  intro linked _ d hd
  exact ((linkOne_report backend units job.header linked).own d hd).1

end Reports

variable {U : Type} (job : Job) (backend : Backend U) (effect : Effect) (s : Session)

/-- What passes validation can be given shaders with the names of all programs, from any pool. -/
theorem resolvable_validateAll {linked : LinkedProgram}
    (hmem : linked ∈ (validateAll job.options (effect.check .empty).table effect.programs).programs)
    (hok : linked.ok = true) : linked.program.Resolvable (symbols job effect) := by
  obtain ⟨i, hi⟩ := List.mem_iff_getElem?.mp hmem
  rw [getElem?_validateAll] at hi
  obtain ⟨decl, -, rfl⟩ := Option.map_eq_some_iff.mp hi
  exact resolvable_of_passed (List.isEmpty_iff.mp hok)

theorem held_resolution {linked : LinkedProgram}
    (hmem : linked ∈ (resolution job effect s).programs) (hok : linked.ok = true) :
    linked.program.Held (resolution job effect s).pool := by
  obtain ⟨i, hi⟩ := List.mem_iff_getElem?.mp hmem
  obtain ⟨before, start, r, -, -, hprogram, hr, hextends⟩ := getElem?_resolution hi hok
  rw [hprogram]
  exact hr.held.mono hextends

theorem supplied_resolution (hneeds : (Strategy.ofHeader job.header).needsUnits = true)
    {linked : LinkedProgram} (hmem : linked ∈ (resolution job effect s).programs)
    (hok : linked.ok = true) :
    linked.program.Supplied
      (units job backend (resolution job effect s).pool (reported job effect s)).2 := by
  rw [units_eq, Program.unitsOf, if_pos hneeds]
  exact (held_resolution job effect s hmem hok).supplied _

/-- A link run puts no internal error into the queue. A program that has passed validation gets a shader
for every populated stage, from any pool; if it goes on, the ids are those of the final pool. Where the
target needs compiled shaders, each of these stages finds its entry among them. -/
theorem link_no_internalError :
    s.queue.Receives (fun d => d.code ≠ .internalError) (link job backend effect s).1.queue ∧
    (∀ d ∈ (link job backend effect s).1.queue.kept, d.code = .internalError → d ∈ s.queue.kept) ∧
    (∀ linked ∈ (validateAll job.options (effect.check .empty).table effect.programs).programs,
      linked.ok = true → ∀ pool,
        (linked.program.resolve (symbols job effect) job.header pool).ok = true ∧
        (linked.program.resolve (symbols job effect) job.header pool).program.Held
          (linked.program.resolve (symbols job effect) job.header pool).pool) ∧
    (∀ (i : Nat) (linked : LinkedProgram), (admitted job effect s)[i]? = some linked →
      linked.ok = true → ∃ p, (resolution job effect s).programs[i]? = some ⟨p, true⟩ ∧
        p.Held (link job backend effect s).2.pool) ∧
    ((Strategy.ofHeader job.header).needsUnits = true →
      ∀ linked ∈ (resolution job effect s).programs, linked.ok = true →
        linked.program.Supplied
          (units job backend (resolution job effect s).pool (reported job effect s)).2) := by
  have hqueue : s.queue.Receives (fun d => d.code ≠ .internalError)
      (link job backend effect s).1.queue := by
    have hearly : EarlyUntil s
        (units job backend (resolution job effect s).pool (reported job effect s)).1 :=
      (earlyUntil_reported job effect).trans (earlyUntil_units job backend _ _)
    -- an internal error has a code of linking, so only the last phase could report one
    refine (hearly.mono fun d hd hcode => ?_).trans (receives_linkAll job backend _ _ ?_)
    · rw [hcode] at hd
      contradiction
    · intro linked hmem
      unfold linkOne
      split
      · next hok =>
        exact Program.code_linkWith backend fun hneeds =>
          supplied_resolution job backend effect s hneeds hmem hok
      · exact fun _ hd => absurd hd List.not_mem_nil
  refine ⟨hqueue, fun d hd hcode => ?_, fun linked hmem hok pool => ?_, fun i linked hi hok => ?_,
    fun hneeds linked hmem hok => supplied_resolution job backend effect s hneeds hmem hok⟩
  · exact (hqueue.mem_kept hd).resolve_right fun hne => hne hcode
  · have hr := Program.resolving_resolve job.header pool (resolvable_validateAll job effect hmem hok)
    exact ⟨hr.ok, hr.held⟩
  · obtain ⟨-, r, hat, -, -⟩ :=
      getElem?_resolveAll_of_ok job.header .empty (ready_admitted job effect s) hi hok
    refine ⟨r.program, hat, ?_⟩
    rw [pool_link]
    exact held_resolution job effect s (List.mem_of_getElem? hat) rfl

/-- The lanterns, but no source can be generated. -/
def muteJob : Job := { lanternJob with generate := fun _ _ => .error "no words" }

/-- No lantern has a unit, but the shader of Crypt has its entry, and nothing internal is reported. -/
theorem link_no_internalError_mute :
    (Strategy.ofHeader muteJob.header).needsUnits = true ∧
    (admitted muteJob lanterns emptySession)[2]?.map (·.ok) = some true ∧
    (∀ d ∈ (link muteJob echo lanterns emptySession).1.queue.kept, d.code ≠ .internalError) ∧
    ∃ p, (resolution muteJob lanterns emptySession).programs[2]? = some ⟨p, true⟩ ∧
      p.Held (link muteJob echo lanterns emptySession).2.pool ∧
      p.Supplied (units muteJob echo (resolution muteJob lanterns emptySession).pool
        (reported muteJob lanterns emptySession)).2 := by
  have hneeds : (Strategy.ofHeader muteJob.header).needsUnits = true := by decide
  have hpassed : (admitted muteJob lanterns emptySession)[2]?.map (·.ok) = some true := by decide
  obtain ⟨linked, hi, hok⟩ := Option.map_eq_some_iff.mp hpassed
  obtain ⟨-, hkept, -, hheld, hsupplied⟩ := link_no_internalError muteJob echo lanterns emptySession
  obtain ⟨p, hp, hpool⟩ := hheld 2 linked hi hok
  refine ⟨hneeds, hpassed, fun d hd hcode => ?_, p, hp, hpool, ?_⟩
  · exact absurd (hkept d hd hcode) List.not_mem_nil
  · exact hsupplied hneeds _ (List.mem_of_getElem? hp) rfl

end Linker

end EffectLink
