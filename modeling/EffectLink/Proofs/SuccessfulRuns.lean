import EffectLink.Command
import EffectLink.Proofs.FailedPrograms
import EffectLink.Proofs.QueueIndependence

namespace EffectLink

namespace Program

variable {U : Type} {p : Program} {backend : Backend U} {units : List (Option U)}

/-- A program that is linked has a unit for each populated stage, where the target needs units. -/
theorem unitAt_of_linkWith {header : Header}
    (hneeds : (Strategy.ofHeader header).needsUnits = true)
    (hok : (p.linkWith backend units header).ok = true) {stage : Stage} {slot : StageSlot}
    (hslot : p.slot stage = some slot) : ∃ unit, unitAt units slot = some (some unit) := by
  rcases p.linkWith_cases backend units header with ⟨-, binaries, hr⟩ | ⟨hnone, -⟩
  · rw [hr] at hok
    obtain ⟨found, live, calls, hfound, -⟩ := linkAndReflect_of_ok hok
    exact unitAt_of_stageUnits hfound stage.mem_all hslot
  · rw [hnone] at hneeds
    contradiction

end Program

namespace Linker

variable {U : Type} {job : Job} {backend : Backend U} {effect : Effect} {s : Session}
  {medium : Medium}

/-- A run that lists no failed program had none, and reports nothing while it writes. -/
theorem foldl_writeOne_of_success {pool : Pool} {programs : List LinkedProgram} {report : Report}
    (h : (programs.foldl (writeOne job pool medium) (s, report)).2.failed = []) :
    report.failed = [] ∧ (∀ linked ∈ programs, linked.ok = true) ∧
      (programs.foldl (writeOne job pool medium) (s, report)).1.queue = s.queue := by
  induction programs generalizing s report with
  | nil => exact ⟨h, fun _ hmem => absurd hmem List.not_mem_nil, rfl⟩
  | cons linked rest ih =>
    rw [List.foldl_cons] at h ⊢
    rcases writeOne_cases job s pool report linked with
      ⟨-, hnext⟩ | ⟨hok, disk, -, hnext⟩ | ⟨-, disk, fault, -, hnext⟩
    -- a name that is listed once stays listed
    · rw [hnext] at h
      exact absurd (ih h).1 (List.append_ne_nil_of_right_ne_nil _ (List.cons_ne_nil _ _))
    · rw [hnext] at h ⊢
      obtain ⟨hfailed, hrest, hqueue⟩ := ih h
      exact ⟨hfailed, List.forall_mem_cons.mpr ⟨hok, hrest⟩, hqueue⟩
    · rw [hnext] at h
      exact absurd (ih h).1 (List.append_ne_nil_of_right_ne_nil _ (List.cons_ne_nil _ _))

/-- All programs of an effect are linked. -/
def AllLinked (job : Job) (backend : Backend U) (effect : Effect) (s : Session) : Prop :=
  ∀ linked ∈ (link job backend effect s).2.programs, linked.ok = true

theorem AllLinked.linkOne (h : AllLinked job backend effect s) {before : LinkedProgram}
    (hmem : before ∈ (resolution job effect s).programs) :
    before.ok = true ∧ (before.program.linkWith backend
      (Program.unitsOf (compiledUnit job backend) job.header (resolution job effect s).pool)
      job.header).ok = true := by
  unfold AllLinked at h
  rw [programs_link] at h
  have hok := h _ (List.mem_map_of_mem hmem)
  by_cases hbefore : before.ok = true
  · rw [Linker.linkOne, if_pos hbefore] at hok
    exact ⟨hbefore, hok⟩
  · rw [Linker.linkOne, if_neg hbefore] at hok
    exact absurd hok hbefore

/-- Linking the programs adds no error to those that were counted before. -/
theorem AllLinked.errors_link (h : AllLinked job backend effect s) :
    (link job backend effect s medium).1.queue.errors =
      (units job backend (resolution job effect s).pool (reported job effect s)
        medium).1.queue.errors := by
  rw [link_eq]
  refine (receives_linkAll job backend _ _ fun before hmem => ?_).errors_eq
  obtain ⟨hbefore, hok⟩ := h.linkOne hmem
  rw [Linker.linkOne, if_pos hbefore, units_eq]
  rcases before.program.linkWith_status backend _ job.header with ⟨-, hnone⟩ | ⟨hfailed, -⟩
  · exact hnone
  · exact absurd (hok.symm.trans hfailed) Bool.noConfusion

theorem faults_validateAll_eq_nil {options : LinkOptions} {t : SymbolTable} {decls : List ProgramDecl}
    (h : ∀ linked ∈ (validateAll options t decls).programs, linked.ok = true) :
    (validateAll options t decls).faults = [] := by
  induction decls generalizing t with
  | nil => rfl
  | cons decl rest ih =>
    rw [validateAll_cons] at h ⊢
    obtain ⟨hfirst, hrest⟩ := List.forall_mem_cons.mp h
    exact List.append_eq_nil_iff.mpr ⟨List.isEmpty_iff.mp hfirst, ih hrest⟩

theorem AllLinked.admitted (h : AllLinked job backend effect s) :
    ∀ before ∈ Linker.admitted job effect s, before.ok = true := by
  intro before hmem
  have hstatus : before.ok ∈ (resolution job effect s).programs.map (·.ok) := by
    rw [statuses_resolution]
    exact List.mem_map_of_mem hmem
  obtain ⟨after, hafter, heq⟩ := List.mem_map.mp hstatus
  exact heq.symm.trans (h.linkOne hafter).1

/-- Up to the shaders, only declarations can have added errors. -/
theorem AllLinked.errors_reported (h : AllLinked job backend effect s) :
    (reported job effect s).queue.errors =
      (s.report (effect.check .empty).faults).queue.errors := by
  have hfaults : (validateAll job.options (effect.check .empty).table effect.programs).faults =
      [] := by
    refine faults_validateAll_eq_nil fun validated hmem => ?_
    exact (Bool.and_eq_true_iff.mp (h.admitted _ (List.mem_map_of_mem hmem))).1
  unfold reported
  rw [hfaults]
  exact Queue.errors_addAll_of_not_errors fun d hd =>
    (warnings_resolveAll job.header .empty (ready_admitted job effect s) d hd).2

/-- Every shader of the pool belongs to a program, so if all programs are linked then it compiles. -/
theorem AllLinked.compiled (h : AllLinked job backend effect s)
    (hneeds : (Strategy.ofHeader job.header).needsUnits = true) {a : Shader}
    (ha : a ∈ (resolution job effect s).pool.shaders) :
    ∃ unit, compiledUnit job backend a = some unit := by
  have hready := ready_admitted job effect s
  rcases (pooled_resolveAll job.header .empty hready).members a ha with
    hnone | ⟨before, hbefore, hok, stage, slot, f, hslot, hf, hrequest⟩
  · exact absurd hnone List.not_mem_nil
  obtain ⟨i, hi⟩ := List.mem_iff_getElem?.mp hbefore
  obtain ⟨start, r, hat, hr, hextends⟩ := getElem?_resolveAll_of_ok job.header .empty hready hi hok
  -- the stage that asked for the shader holds its id
  obtain ⟨f', id, found, hf', hafter, hfound, hkey⟩ := (hr.settled_all hslot).mono hextends
  rw [hf] at hf'
  cases hf'
  rw [← hrequest] at hkey
  obtain ⟨j, hj⟩ := List.mem_iff_getElem?.mp ha
  have hj : (resolution job effect s).pool.get? j = some a := hj
  have hid : id = j := (distinct_resolution job effect s).id_unique hfound hj hkey
  -- and finds a unit there, since the program is linked
  have hlinked := (h.linkOne (List.mem_of_getElem? hat)).2
  obtain ⟨unit, hunit⟩ := Program.unitAt_of_linkWith hneeds hlinked
    (Program.slot_eq_some.mpr ⟨hafter, (Program.slot_eq_some.mp hslot).2⟩)
  refine ⟨unit, ?_⟩
  rw [Program.unitsOf, if_pos hneeds, Program.unitAt, Program.bind_units, hid] at hunit
  rw [Option.bind_some, hj] at hunit
  exact Option.some.inj hunit

theorem dumpSource_errors (outDir : String) (shader : Shader) (source : String)
    (hqueue : s.queue.Tallied) :
    0 < (dumpSource outDir shader source s medium).queue.errors ↔
      0 < s.queue.errors ∨
        s.disk.storeFaults outDir [(dumpPath outDir shader, Utf8.encode source)] medium ≠ [] := by
  unfold dumpSource Disk.storeFaults
  dsimp only
  rcases medium s.disk outDir (dumpPath outDir shader) (Utf8.encode source) with ⟨disk, outcome⟩
  cases outcome with
  | ok _ => exact (or_iff_left fun hne => hne rfl).symm
  | error fault =>
    exact iff_of_true (Queue.Tallied.errors_add_pos hqueue rfl) (Or.inr (List.cons_ne_nil _ _))

theorem dumped_errors {shader : Shader} {source : String} (hqueue : s.queue.Tallied)
    (hsource : job.generate job.header shader = .ok source) :
    0 < (dumped job s shader source medium).queue.errors ↔
      0 < s.queue.errors ∨
        s.disk.storeFaults job.outDir (shaderFiles job shader) medium ≠ [] := by
  unfold dumped shaderFiles
  rw [hsource]
  split
  · exact dumpSource_errors job.outDir shader source hqueue
  · exact (or_iff_left fun hne => hne rfl).symm

/-- A shader that compiles adds an error exactly if its source cannot be written. -/
theorem compileShader_errors {shader : Shader} {unit : U} (hqueue : s.queue.Tallied)
    (hunit : compiledUnit job backend shader = some unit) :
    0 < (compileShader job backend s shader medium).1.queue.errors ↔
      0 < s.queue.errors ∨
        s.disk.storeFaults job.outDir (shaderFiles job shader) medium ≠ [] := by
  rw [← unit_compileShader backend s shader medium] at hunit
  rcases compileShader_cases job backend s shader with
    ⟨message, -, hr⟩ | ⟨source, hsource, ⟨compiled, -, hr⟩ | ⟨log, -, hr⟩⟩
  · rw [hr] at hunit
    contradiction
  · rw [hr]
    exact dumped_errors hqueue hsource
  · rw [hr] at hunit
    contradiction

theorem compileAll_errors {shaders : List Shader} (hqueue : s.queue.Tallied)
    (hunits : ∀ a ∈ shaders, ∃ unit, compiledUnit job backend a = some unit) :
    0 < (compileAll job backend s shaders medium).1.queue.errors ↔
      0 < s.queue.errors ∨
        s.disk.storeFaults job.outDir (shaders.flatMap (shaderFiles job)) medium ≠ [] := by
  induction shaders generalizing s with
  | nil => exact (or_iff_left fun hne => hne rfl).symm
  | cons shader rest ih =>
    obtain ⟨⟨unit, hunit⟩, hrest⟩ := List.forall_mem_cons.mp hunits
    have htallied := (compiling_compileShader (s := s) job backend shader medium).tallied hqueue
    change 0 < (compileAll job backend (compileShader job backend s shader medium).1 rest
      medium).1.queue.errors ↔ _
    rw [ih htallied hrest, compileShader_errors hqueue hunit, compileShader_disk, or_assoc,
      List.flatMap_cons, Disk.storeFaults_append, Ne, Ne, Ne, List.append_eq_nil_iff,
      not_and_or]

theorem units_errors {pool : Pool} (hqueue : s.queue.Tallied)
    (hunits : (Strategy.ofHeader job.header).needsUnits = true →
      ∀ a ∈ pool.shaders, ∃ unit, compiledUnit job backend a = some unit) :
    0 < (units job backend pool s medium).1.queue.errors ↔
      0 < s.queue.errors ∨ s.disk.storeFaults job.outDir (dumpFiles job pool) medium ≠ [] := by
  unfold units dumpFiles
  split
  · next hneeds => exact compileAll_errors hqueue (hunits hneeds)
  · exact (or_iff_left fun hne => hne rfl).symm

/-- From an empty queue, linking that fails no program has counted an error exactly if a declaration is
at fault or a source cannot be written. -/
theorem AllLinked.errors_iff {config : QueueConfig} (h : AllLinked job backend effect s)
    (hempty : s.queue = .empty config) :
    0 < (link job backend effect s medium).1.queue.errors ↔
      (effect.check .empty).faults ≠ [] ∨
        s.disk.storeFaults job.outDir (dumpFiles job (link job backend effect s).2.pool) medium ≠
          [] := by
  have hqueue : s.queue.Tallied := hempty ▸ Queue.tallied_empty config
  have hdeclared : 0 < (s.report (effect.check .empty).faults).queue.errors ↔
      (effect.check .empty).faults ≠ [] := by
    constructor
    · intro hpos hnone
      rw [hnone] at hpos
      change 0 < s.queue.errors at hpos
      rw [hempty] at hpos
      exact absurd hpos (Nat.lt_irrefl 0)
    · intro hsome
      obtain ⟨d, hd⟩ := List.exists_mem_of_ne_nil _ hsome
      exact hqueue.errors_addAll_pos hd (effect.flaws_check .empty d hd).1
  have hreported := (earlyUntil_reported job effect).tallied hqueue
  rw [h.errors_link, units_errors hreported fun hneeds _ ha => h.compiled hneeds ha,
    h.errors_reported, hdeclared, pool_link]
  rfl

/-- With an effect that has programs, a fault of its declarations fails them all. -/
theorem AllLinked.programs_eq_nil {config : QueueConfig} (h : AllLinked job backend effect s)
    (hempty : s.queue = .empty config) (hfaults : (effect.check .empty).faults ≠ []) :
    effect.programs = [] := by
  obtain ⟨d, hd⟩ := List.exists_mem_of_ne_nil _ hfaults
  have hunknown : ¬effect.KnownTo s.queue := by
    intro hknown
    have hkept := (hknown d hd).2
    rw [hempty] at hkept
    exact absurd hkept List.not_mem_nil
  have hsound := sound_eq_false effect (hempty ▸ Queue.tallied_empty config) hunknown
  obtain ⟨hfailed, -⟩ := link_of_unsound job backend hsound
  have hnone : (link job backend effect s).2.programs = [] := by
    refine List.eq_nil_iff_forall_not_mem.mpr fun linked hmem => ?_
    exact absurd ((h linked hmem).symm.trans (hfailed linked hmem)) Bool.noConfusion
  rw [programs_link, List.map_eq_nil_iff] at hnone
  rw [← List.length_eq_zero_iff, ← length_resolution job effect s, hnone]
  rfl

/-- A run from an empty queue that lists no failed program has counted errors exactly in two cases: there
is no program, and the backend does not start or a declaration is at fault; or the source of a shader
was to be written next to the artifacts and could not be. -/
theorem run_success_errors_iff (job : Job) (backend : Backend U) (effect : Effect) (s : Session)
    (medium : Medium) (config : QueueConfig) (hempty : s.queue = .empty config)
    (hsuccess : (run job backend effect s medium).2.isSuccess = true) :
    0 < (run job backend effect s medium).1.queue.errors ↔
      (effect.programs = [] ∧ ((∃ message, backend.acquire = .error message) ∨
        (effect.check .empty).faults ≠ [])) ∨
      s.disk.storeFaults job.outDir (dumpFiles job (link job backend effect s).2.pool) medium ≠
        [] := by
  have hfailed : (run job backend effect s medium).2.failed = [] := List.isEmpty_iff.mp hsuccess
  cases hacquire : backend.acquire with
  | error message =>
    rw [run_of_acquire_error job backend effect s hacquire] at hfailed ⊢
    have hqueue : s.queue.Tallied := hempty ▸ Queue.tallied_empty config
    refine iff_of_true (Queue.Tallied.errors_add_pos hqueue rfl) (Or.inl ⟨?_, Or.inl ⟨message, rfl⟩⟩)
    exact List.map_eq_nil_iff.mp hfailed
  | ok _ =>
    rw [run_of_acquire_ok job backend effect s hacquire] at hfailed ⊢
    -- no artifact has failed, so the errors are those that linking has left
    obtain ⟨-, hlinked, hqueue⟩ := foldl_writeOne_of_success hfailed
    have hall : AllLinked job backend effect (s.call .acquire) := by
      rw [link_result_medium] at hlinked
      exact hlinked
    have hpool : (link job backend effect (s.call .acquire)).2.pool =
        (link job backend effect s).2.pool := by
      rw [pool_link, pool_link]
      exact congrArg ResolvedAll.pool (resolution_congr job rfl)
    change 0 < (write job _ _ _).1.queue.errors ↔ _
    rw [write, hqueue, hall.errors_iff hempty, hpool]
    refine or_congr_left ?_
    constructor
    · exact fun hfaults => ⟨hall.programs_eq_nil hempty hfaults, Or.inr hfaults⟩
    · rintro ⟨-, ⟨message, hmessage⟩ | hfaults⟩
      · contradiction
      · exact hfaults

/-- The lanterns with their sources next to them. -/
def openJob : Job :=
  { lanternJob with
    header := { lanternJob.header with switches := { Switches.none with
      staticBindings := true, dumpSources := true } } }

/-- A session that has a directory where the source of Amber is to be written. -/
def blockedSession : Session :=
  { emptySession with
    disk := ⟨[(["out"], .directory), (["out", "flame_tint___warm.vert.glsl"], .directory)], []⟩ }

/-- Amber is linked and written, but its source is not. -/
theorem run_success_errors_iff_amber :
    let amber := lanterns.only (lantern "Amber" "warm")
    (run openJob echo amber blockedSession).2 = ⟨["out/Amber.fxb"], []⟩ ∧
    0 < (run openJob echo amber blockedSession).1.queue.errors := by
  intro amber
  have hreport : (run openJob echo amber blockedSession).2 = ⟨["out/Amber.fxb"], []⟩ := by decide
  refine ⟨hreport, ?_⟩
  have herrors := run_success_errors_iff openJob echo amber blockedSession _ .standard rfl
    (by rw [hreport]; rfl)
  exact herrors.mpr (Or.inr (by decide))

end Linker

/-- A structure that has itself for a member, and no program. -/
def loopDisk : Disk :=
  let text := "\x7b\"structures\": [\x7b\"name\": \"S\", \"line\": 1, \"members\": " ++
    "[\x7b\"name\": \"s\", \"type\": \"S\"\x7d]\x7d]\x7d"
  ⟨[(["loop.json"], .file (Utf8.encode text))], []⟩

/-- Exit code and error output of a command. -/
def Outcome.verdict (o : Outcome) : Nat × String := (o.code, o.stderr)

/-- Linking fails with an error, and the exit code is that of success. -/
theorem Command.compile_exits_zero_with_error :
    (Command.compile ["loop.json"] (fun _ _ => .error (.syntactic "")) loopDisk false).verdict =
      (0, "error [E1004]: structure 'S' includes itself as a member\n  --> loop.json:1\n\n" ++
        "error: link failed with 1 error\n") := by
  decide +kernel

end EffectLink
