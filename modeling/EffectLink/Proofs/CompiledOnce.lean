import EffectLink.Proofs.SuccessfulRuns

namespace EffectLink

namespace Shader

variable {shader : Shader}

/-- The source of a shader that has code. -/
def sourceText (shader : Shader) : String := shader.source.toOption.getD ""

theorem source_of_blank (h : Text.isBlankText shader.function.code = true) :
    shader.source = .error (.blankCode shader.function.name) := by
  unfold source
  exact if_pos h

theorem source_of_code (h : Text.isBlankText shader.function.code = false) :
    shader.source = .ok shader.sourceText := by
  obtain ⟨text, htext⟩ : ∃ text, shader.source = .ok text := by
    unfold source
    dsimp only
    rw [if_neg (Bool.eq_false_iff.mp h)]
    split
    · exact ⟨_, rfl⟩
    · exact ⟨_, rfl⟩
  rw [sourceText, htext]
  rfl

end Shader

namespace Queue

variable {q later : Queue} {d : Diagnostic} {sort : Diagnostic → Prop}

/-- Number of shader failures among the diagnostics that are kept. -/
def compileFailures (q : Queue) : Nat := q.kept.countP (·.code == .compileFailure)

theorem compileFailures_keep (q : Queue) (d : Diagnostic) :
    (q.keep d).compileFailures = q.compileFailures + (d.code == .compileFailure).toNat := by
  unfold compileFailures keep
  dsimp only
  rw [List.countP_append, List.countP_singleton]
  cases d.code == .compileFailure <;> rfl

/-- Whatever becomes of another diagnostic, the number stays as it is. -/
theorem compileFailures_add_other (h : d.code ≠ .compileFailure) :
    (q.add d).compileFailures = q.compileFailures := by
  have hother : (d.code == .compileFailure) = false := beq_eq_false_iff_ne.mpr h
  rcases q.add_cases d with ⟨-, hadd⟩ | ⟨-, -, -, hadd⟩ | ⟨-, -, hadd⟩
  · rw [hadd]
  · rw [hadd]
    rfl
  · rw [hadd, compileFailures_keep, hother]
    rfl

theorem compileFailures_addAll_other {ds : List Diagnostic} (h : ∀ d ∈ ds, d.code ≠ .compileFailure) :
    (q.addAll ds).compileFailures = q.compileFailures := by
  induction ds generalizing q with
  | nil => rfl
  | cons d ds ih =>
    obtain ⟨hd, hds⟩ := List.forall_mem_cons.mp h
    exact (ih hds).trans (compileFailures_add_other hd)

theorem Receives.compileFailures_eq (h : q.Receives sort later)
    (hsort : ∀ d, sort d → d.code ≠ .compileFailure) :
    later.compileFailures = q.compileFailures := by
  induction h with
  | refl => rfl
  | add _ hd ih => rw [compileFailures_add_other (hsort _ hd), ih]
  | @merge _ middle filled _ _ hfilled ih _ =>
    -- the merged queue keeps nothing but what it has received itself
    have hkept : ∀ d ∈ filled.kept, d.code ≠ .compileFailure := by
      intro d hd
      rcases hfilled.mem_kept hd with hnone | hreceived
      · exact absurd hnone List.not_mem_nil
      · exact hsort d hreceived
    calc (middle.merge filled).compileFailures = (middle.addAll filled.kept).compileFailures := rfl
      _ = middle.compileFailures := compileFailures_addAll_other hkept
      _ = _ := ih

theorem Receives.config_eq (h : q.Receives sort later) : later.config = q.config := by
  induction h with
  | refl => rfl
  | add _ _ ih => rw [config_add, ih]
  | merge _ _ ih _ => exact (config_addAll _ _).trans ih

/-- A queue that keeps everything keeps each failure. -/
theorem compileFailures_add (hq : q.config = .unlimited) (h : d.code = .compileFailure) :
    (q.add d).compileFailures = q.compileFailures + 1 := by
  have hseen : q.seen d = false := by
    rw [seen, hq]
    rfl
  have hroom : q.limitReached = false := by
    rw [limitReached, hq]
    rfl
  rcases q.add_cases d with ⟨hagain, -⟩ | ⟨-, -, hfull, -⟩ | ⟨-, -, hadd⟩
  · rw [hseen] at hagain
    contradiction
  · rw [hroom] at hfull
    contradiction
  · rw [hadd, compileFailures_keep, h]
    rfl

end Queue

namespace Linker

variable {U : Type} {job : Job} {backend : Backend U} {effect : Effect} {s : Session}
  {medium : Medium}

theorem reported_failures (job : Job) (effect : Effect) (s : Session) :
    s.queue.Receives (fun d => d.code ≠ .compileFailure) (reported job effect s).queue := by
  have hchecking {d : Diagnostic} (h : d.code.ofChecking = true) : d.code ≠ .compileFailure := by
    intro hcode
    rw [hcode] at h
    contradiction
  have hdeclared : s.queue.Receives (fun d => d.code ≠ .compileFailure)
      (s.report (effect.check .empty).faults).queue :=
    Queue.receives_addAll fun d hd => hchecking (effect.flaws_check .empty d hd).2
  have hvalidated := hdeclared.trans (Queue.receives_addAll fun d hd =>
    hchecking (flaws_validateAll job.options (effect.check .empty).table effect.programs d hd).2)
  refine hvalidated.trans (Queue.receives_addAll fun d hd => ?_)
  rw [(warnings_resolveAll job.header .empty (ready_admitted job effect s) d hd).1]
  decide

theorem linkAll_failures (job : Job) (backend : Backend U) (units : List (Option U))
    (programs : List LinkedProgram) (s : Session) :
    s.queue.Receives (fun d => d.code ≠ .compileFailure)
      (linkAll job backend units programs s).1.queue := by
  refine (linking_linkAll job backend units programs s).mono ?_
  intro d hlinking hcode
  rw [hcode] at hlinking
  contradiction

/-- What a program that is linked leads to in the end: its artifact is written. -/
def artifactCalls (job : Job) (linked : LinkedProgram) : List Call :=
  if linked.ok then [.write (artifactPath job.outDir linked.program.name)] else []

theorem writeOne_session (job : Job) (pool : Pool) (s : Session) (report : Report)
    (linked : LinkedProgram) (medium : Medium) :
    let next := (writeOne job pool medium (s, report) linked).1
    s.queue.Receives (fun d => d.code = .ioFailure) next.queue ∧
      next.calls = s.calls ++ artifactCalls job linked := by
  unfold artifactCalls
  rcases writeOne_cases job s pool report linked with
    ⟨hok, hnext⟩ | ⟨hok, disk, -, hnext⟩ | ⟨hok, disk, fault, -, hnext⟩
  · rw [hnext, hok]
    exact ⟨.refl _, (List.append_nil _).symm⟩
  · rw [hnext, hok]
    exact ⟨.refl _, rfl⟩
  · rw [hnext, hok]
    exact ⟨.add (.refl _) rfl, rfl⟩

/-- Writing reports nothing but artifacts that cannot be written, and leaves the backend alone. -/
theorem write_session (job : Job) (result : LinkedEffect) (s : Session) (medium : Medium) :
    let final := (write job result s medium).1
    s.queue.Receives (fun d => d.code = .ioFailure) final.queue ∧
      final.calls = s.calls ++ result.programs.flatMap (artifactCalls job) := by
  have hfold (programs : List LinkedProgram) (report : Report) :
      let final := (programs.foldl (writeOne job result.pool medium) (s, report)).1
      s.queue.Receives (fun d => d.code = .ioFailure) final.queue ∧
        final.calls = s.calls ++ programs.flatMap (artifactCalls job) := by
    induction programs generalizing s report with
    | nil => exact ⟨.refl _, (List.append_nil _).symm⟩
    | cons linked rest ih =>
      obtain ⟨hqueue, hcalls⟩ := writeOne_session job result.pool s report linked medium
      rw [List.foldl_cons, List.flatMap_cons, ← List.append_assoc]
      rcases hstep : writeOne job result.pool medium (s, report) linked with ⟨next, listed⟩
      rw [hstep] at hqueue hcalls
      obtain ⟨hqueue', hcalls'⟩ := ih next listed
      rw [← hcalls]
      exact ⟨hqueue.trans hqueue', hcalls'⟩
  exact hfold result.programs ⟨[], []⟩

theorem dumped_receives (shader : Shader) (source : String) :
    s.queue.Receives (fun d => d.code = .ioFailure) (dumped job s shader source medium).queue := by
  unfold dumped dumpSource
  split
  · dsimp only
    split
    · exact .refl _
    · exact .add (.refl _) rfl
  · exact .refl _

/-- One shader adds its failure or nothing. -/
theorem compileShader_failures (job : Job) (backend : Backend U) (hq : s.queue.config = .unlimited)
    (shader : Shader) :
    let r := compileShader job backend s shader medium
    r.1.queue.config = .unlimited ∧
    r.1.queue.compileFailures =
      s.queue.compileFailures + (compiledUnit job backend shader).isNone.toNat := by
  rw [← unit_compileShader backend s shader medium]
  have hdumped (source : String) : (dumped job s shader source medium).queue.config = .unlimited :=
    (dumped_receives shader source).config_eq.trans hq
  have hkept (source : String) :
      (dumped job s shader source medium).queue.compileFailures = s.queue.compileFailures := by
    apply (dumped_receives shader source).compileFailures_eq
    intro d hd
    rw [hd]
    decide
  rcases compileShader_cases job backend s shader with
    ⟨message, -, hr⟩ | ⟨source, -, ⟨unit, -, hr⟩ | ⟨log, -, hr⟩⟩
  · rw [hr]
    exact ⟨(Queue.config_add _ _).trans hq, Queue.compileFailures_add hq rfl⟩
  · rw [hr]
    exact ⟨hdumped source, hkept source⟩
  · rw [hr]
    refine ⟨(Queue.config_add _ _).trans (hdumped source), ?_⟩
    rw [← hkept source]
    exact Queue.compileFailures_add (hdumped source) rfl

theorem compileAll_failures (job : Job) (backend : Backend U) (hq : s.queue.config = .unlimited)
    (shaders : List Shader) :
    (compileAll job backend s shaders medium).1.queue.compileFailures = s.queue.compileFailures +
      shaders.countP fun shader => (compiledUnit job backend shader).isNone := by
  induction shaders generalizing s with
  | nil => rfl
  | cons shader rest ih =>
    obtain ⟨hnext, hfirst⟩ := compileShader_failures job backend hq shader
    have hrest : (compileAll job backend s (shader :: rest) medium).1.queue.compileFailures =
        (compileShader job backend s shader medium).1.queue.compileFailures +
          rest.countP fun shader => (compiledUnit job backend shader).isNone := ih hnext
    have hone : (compiledUnit job backend shader).isNone.toNat =
        if (compiledUnit job backend shader).isNone = true then 1 else 0 := by
      cases (compiledUnit job backend shader).isNone <;> rfl
    rw [hrest, hfirst, List.countP_cons, hone]
    omega

theorem link_failures (job : Job) (backend : Backend U) (effect : Effect) (medium : Medium)
    (hq : s.queue.config = .unlimited) :
    (link job backend effect s medium).1.queue.compileFailures = s.queue.compileFailures +
      if (Strategy.ofHeader job.header).needsUnits then
        (link job backend effect s medium).2.pool.shaders.countP fun shader =>
          (compiledUnit job backend shader).isNone
      else 0 := by
  -- of the three phases only the middle one reports failures
  have hreported := reported_failures job effect s
  have hbefore : (reported job effect s).queue.compileFailures = s.queue.compileFailures :=
    hreported.compileFailures_eq fun _ h => h
  have hunits : (units job backend (resolution job effect s).pool
      (reported job effect s) medium).1.queue.compileFailures = s.queue.compileFailures +
        if (Strategy.ofHeader job.header).needsUnits then
          (resolution job effect s).pool.shaders.countP fun shader =>
            (compiledUnit job backend shader).isNone
        else 0 := by
    rw [← hbefore]
    unfold units
    split
    · exact compileAll_failures job backend (hreported.config_eq.trans hq) _
    · rfl
  rw [pool_link, ← hunits, link_eq]
  exact (linkAll_failures job backend _ _ _).compileFailures_eq fun _ h => h

/-- A program with a shader that has no unit is not linked. -/
theorem not_linked_of_no_unit (hneeds : (Strategy.ofHeader job.header).needsUnits = true)
    {i id : Nat} {stage : Stage} {slot : StageSlot} {shader : Shader}
    (hslot : slotOf job effect s i stage = some slot) (hid : slot.shader = some id)
    (hshader : (link job backend effect s).2.pool.get? id = some shader)
    (hnone : compiledUnit job backend shader = none) :
    ∃ linked, (link job backend effect s).2.programs[i]? = some linked ∧ linked.ok = false := by
  obtain ⟨before, hbefore, hslot⟩ := Option.bind_eq_some_iff.mp hslot
  rw [pool_link] at hshader
  rw [programs_link, List.getElem?_map, hbefore]
  refine ⟨_, rfl, Bool.eq_false_iff.mpr fun hok => ?_⟩
  unfold linkOne at hok
  dsimp only at hok
  split at hok
  · -- linking would have found a unit for the stage, but its entry is empty
    obtain ⟨unit, hunit⟩ := Program.unitAt_of_linkWith hneeds hok hslot
    rw [Program.unitsOf, if_pos hneeds, Program.unitAt, Program.bind_units, hid, Option.bind_some,
      hshader, Option.map_some, hnone] at hunit
    cases hunit
  · next hfailed => exact hfailed hok

theorem writeOne_failed (job : Job) (s : Session) (pool : Pool) (report : Report)
    (linked : LinkedProgram) (medium : Medium) :
    report.failed ⊆ (writeOne job pool medium (s, report) linked).2.failed ∧
      (linked.ok = false → linked.program.name ∈ (writeOne job pool medium (s, report) linked).2.failed) := by
  rcases writeOne_cases job s pool report linked with
    ⟨-, hnext⟩ | ⟨hok, disk, -, hnext⟩ | ⟨-, disk, fault, -, hnext⟩
  · rw [hnext]
    exact ⟨List.subset_append_left _ _, fun _ => List.mem_append_right _ (List.mem_singleton_self _)⟩
  · rw [hnext]
    refine ⟨List.Subset.refl _, fun hfailed => ?_⟩
    rw [hok] at hfailed
    contradiction
  · rw [hnext]
    exact ⟨List.subset_append_left _ _, fun _ => List.mem_append_right _ (List.mem_singleton_self _)⟩

/-- A name that is listed as failed stays listed, and that of a program that was not linked is. -/
theorem foldl_writeOne_failed (job : Job) (s : Session) (pool : Pool) (programs : List LinkedProgram)
    (report : Report) (medium : Medium) :
    report.failed ⊆ (programs.foldl (writeOne job pool medium) (s, report)).2.failed ∧
      ∀ linked ∈ programs, linked.ok = false →
        linked.program.name ∈ (programs.foldl (writeOne job pool medium) (s, report)).2.failed := by
  induction programs generalizing s report with
  | nil => exact ⟨List.Subset.refl _, fun _ hmem => absurd hmem List.not_mem_nil⟩
  | cons first rest ih =>
    obtain ⟨hlisted, hfirst⟩ := writeOne_failed job s pool report first medium
    rw [List.foldl_cons]
    rcases hstep : writeOne job pool medium (s, report) first with ⟨next, listed⟩
    rw [hstep] at hlisted hfirst
    obtain ⟨hlater, hrest⟩ := ih next listed
    refine ⟨List.Subset.trans hlisted hlater, fun linked hmem hok => ?_⟩
    rcases List.mem_cons.mp hmem with rfl | hmem
    · exact hlater (hfirst hok)
    · exact hrest linked hmem hok

/-- A shader without code, or with a source that the backend refuses. -/
def failsOn (header : Header) (backend : Backend U) (shader : Shader) : Bool :=
  Text.isBlankText shader.function.code ||
    (backend.compile header shader.identity shader.stage shader.sourceText).toOption.isNone

section Standard

variable (header : Header) (options : LinkOptions) (outDir : String)

theorem isNone_compiledUnit_standard (backend : Backend U) (shader : Shader) :
    (compiledUnit (.standard header options outDir) backend shader).isNone =
      failsOn header backend shader := by
  unfold compiledUnit failsOn Job.standard
  dsimp only
  cases hblank : Text.isBlankText shader.function.code with
  | true =>
    rw [Shader.source_of_blank hblank]
    rfl
  | false =>
    rw [Shader.source_of_code hblank]
    rfl

/-- The calls that compile a list of shaders: each that has code is written, where sources are asked
for, and compiled. -/
theorem flatMap_shaderCalls_standard (shaders : List Shader) :
    shaders.flatMap (shaderCalls (.standard header options outDir)) =
      (shaders.filter fun shader => !Text.isBlankText shader.function.code).flatMap fun shader =>
        (if header.switches.dumpSources then [.write (dumpPath outDir shader)] else []) ++
          [.compile shader.stage shader.sourceText] := by
  induction shaders with
  | nil => rfl
  | cons shader rest ih =>
    rw [List.flatMap_cons, ih, List.filter_cons]
    unfold shaderCalls Job.standard
    dsimp only
    cases hblank : Text.isBlankText shader.function.code with
    | true =>
      rw [Shader.source_of_blank hblank]
      rfl
    | false =>
      rw [Shader.source_of_code hblank]
      rfl

end Standard

/-- Between its start and its stop the backend is asked to compile and to link; the artifacts follow
while it is still there. -/
theorem run_calls (job : Job) (effect : Effect) (s : Session) (medium : Medium)
    (h : backend.acquire = .ok ()) :
    (run job backend effect s medium).1.calls = s.calls ++ [.acquire] ++
      compileCalls job (resolution job effect (s.call .acquire)).pool ++
      linkCalls job backend (resolution job effect (s.call .acquire)) ++
      (link job backend effect (s.call .acquire) medium).2.programs.flatMap (artifactCalls job) ++
      [.release] := by
  rw [run_of_acquire_ok job backend effect s h]
  change (write job _ _ _).1.calls ++ [.release] = _
  rw [(write_session job _ _ _).2, link_calls]
  rfl

theorem run_failures (job : Job) (effect : Effect) (medium : Medium) (h : backend.acquire = .ok ())
    (hq : s.queue.config = .unlimited) :
    (run job backend effect s medium).1.queue.compileFailures = s.queue.compileFailures +
      if (Strategy.ofHeader job.header).needsUnits then
        (link job backend effect (s.call .acquire) medium).2.pool.shaders.countP fun shader =>
          (compiledUnit job backend shader).isNone
      else 0 := by
  have hlinked := link_failures (s := s.call .acquire) job backend effect medium hq
  have hwritten := (write_session job (link job backend effect (s.call .acquire) medium).2
    (link job backend effect (s.call .acquire) medium).1 medium).1
  rw [run_of_acquire_ok job backend effect s h]
  refine (hwritten.compileFailures_eq fun d hd => ?_).trans hlinked
  rw [hd]
  decide

theorem run_failed_of_not_linked (job : Job) (effect : Effect) (h : backend.acquire = .ok ())
    {linked : LinkedProgram}
    (hmem : linked ∈ (link job backend effect (s.call .acquire) medium).2.programs)
    (hok : linked.ok = false) :
    linked.program.name ∈ (run job backend effect s medium).2.failed := by
  rw [run_of_acquire_ok job backend effect s h]
  exact (foldl_writeOne_failed job _ _ _ ⟨[], []⟩ medium).2 linked hmem hok

/-- A run without a backend calls it once, in vain. Otherwise the run starts the backend, compiles each
shader of the pool that has code, once and in order, if the target needs that, uses the objects of the
programs that have their shaders, writes the artifacts of those that are linked, and after all this stops
the backend. A queue that keeps everything then has one failure for each shader that has no code or does
not compile, and every program with a stage that holds such a shader has failed. -/
theorem run_compiles_once (header : Header) (options : LinkOptions) (outDir : String)
    (backend : Backend U) (effect : Effect) (s : Session) (medium : Medium) :
    let job := Job.standard header options outDir
    let outcome := run job backend effect s medium
    let resolved := resolution job effect (s.call .acquire)
    let linked := (link job backend effect (s.call .acquire) medium).2
    let needed := (Strategy.ofHeader header).needsUnits
    (∀ message, backend.acquire = .error message →
      outcome.1.calls = s.calls ++ [.acquire] ∧
      outcome.1.queue.compileFailures = s.queue.compileFailures) ∧
    (backend.acquire = .ok () →
      linked.pool.Distinct ∧
      (∀ shader ∈ linked.pool.shaders, Text.isBlankText shader.function.code = false →
        shader.source = .ok shader.sourceText) ∧
      outcome.1.calls = s.calls ++ [.acquire] ++
        (if needed then
          (linked.pool.shaders.filter fun shader => !Text.isBlankText shader.function.code).flatMap
            fun shader =>
              (if header.switches.dumpSources then [.write (dumpPath outDir shader)] else []) ++
                [.compile shader.stage shader.sourceText]
        else []) ++
        resolved.programs.flatMap (objectCalls backend
          (Program.unitsOf (compiledUnit job backend) header linked.pool) header) ++
        linked.programs.flatMap (artifactCalls job) ++ [.release] ∧
      (s.queue.config = .unlimited → outcome.1.queue.compileFailures =
        s.queue.compileFailures +
          if needed then linked.pool.shaders.countP (failsOn header backend) else 0) ∧
      (needed = true → ∀ (i id : Nat) (stage : Stage) (slot : StageSlot) (shader : Shader),
        slotOf job effect (s.call .acquire) i stage = some slot → slot.shader = some id →
        linked.pool.get? id = some shader → failsOn header backend shader = true →
        ∃ program, linked.programs[i]? = some ⟨program, false⟩ ∧
          program.name ∈ outcome.2.failed)) := by
  intro job outcome resolved linked needed
  have hlost (shader : Shader) :
      (compiledUnit job backend shader).isNone = failsOn header backend shader :=
    isNone_compiledUnit_standard header options outDir backend shader
  have hpool : linked.pool = resolved.pool := pool_link backend
  refine ⟨fun message hacquire => ?_, fun hacquire => ⟨?_, fun shader _ => Shader.source_of_code, ?_,
    fun hq => ?_, fun hneeded i id stage slot shader hslot hid hshader hfails => ?_⟩⟩
  · dsimp only [outcome]
    rw [run_of_acquire_error job backend effect s hacquire]
    exact ⟨rfl, Queue.compileFailures_add_other (Code.noConfusion ·)⟩
  · rw [hpool]
    exact distinct_resolution job effect (s.call .acquire)
  · dsimp only [outcome]
    rw [run_calls job effect s medium hacquire, compileCalls, flatMap_shaderCalls_standard, hpool]
    rfl
  · dsimp only [outcome]
    rw [run_failures job effect medium hacquire hq]
    simp only [hlost]
    rfl
  · have hnone : compiledUnit job backend shader = none := by
      rw [← hlost, Option.isNone_iff_eq_none] at hfails
      exact hfails
    -- what is linked does not depend on the outcomes of writes
    have hlinked : linked = (link job backend effect (s.call .acquire)).2 := link_result_medium backend
    rw [hlinked] at hshader
    obtain ⟨⟨program, ok⟩, hat, rfl⟩ := not_linked_of_no_unit hneeded hslot hid hshader hnone
    rw [← hlinked] at hat
    have hname : program.name ∈ (run job backend effect s medium).2.failed :=
      run_failed_of_not_linked job effect hacquire (List.mem_of_getElem? hat) rfl
    exact ⟨program, hat, hname⟩

/-- A backend that refuses the warm lanterns. -/
def draught : Backend String :=
  { echo with
    compile := fun _ _ _ source =>
      if source = "#define tint warm\nvoid main() {}" then .error "blown out" else .ok source }

def openSession : Session := { emptySession with queue := .empty .unlimited }

/-- Amber and Beacon share the shader that is refused: it is compiled once and reported once, and Beacon
has failed for it. -/
theorem run_compiles_once_lanterns :
    let outcome := run lanternJob draught lanterns openSession
    draught.acquire = .ok () ∧ openSession.queue.config = .unlimited ∧
    outcome.1.calls = [.acquire, .compile .vertex "#define tint warm\nvoid main() {}",
      .compile .vertex "#define tint pale\nvoid main() {}", .object "Amber" .create,
      .object "Beacon" .create, .object "Crypt" .create, .object "Crypt" (.add .vertex),
      .object "Crypt" .link, .object "Crypt" .reflect, .write "out/Crypt.fxb", .release] ∧
    outcome.1.queue.compileFailures = 1 ∧ "Beacon" ∈ outcome.2.failed := by
  intro outcome
  obtain ⟨-, hrun⟩ :=
    run_compiles_once lanternJob.header .standard "out" draught lanterns openSession Disk.writeBelow
  obtain ⟨-, -, hcalls, hfailures, hfailed⟩ := hrun rfl
  have hslot : slotOf lanternJob lanterns (openSession.call .acquire) 1 .vertex =
      some (lanternSlot "warm" 0) := by decide
  have hrefused : ((link lanternJob draught lanterns (openSession.call .acquire)).2.pool.get? 0).any
      (failsOn lanternJob.header draught) = true := by decide
  obtain ⟨shader, hshader, hfails⟩ := (Option.any_eq_true _ _).mp hrefused
  obtain ⟨program, hat, hname⟩ : ∃ program,
      (link lanternJob draught lanterns (openSession.call .acquire)).2.programs[1]? =
        some ⟨program, false⟩ ∧ program.name ∈ outcome.2.failed :=
    hfailed rfl 1 0 .vertex (lanternSlot "warm" 0) shader hslot rfl hshader hfails
  have hbeacon : (link lanternJob draught lanterns (openSession.call .acquire)).2.programs[1]?.map
      (·.program.name) = some "Beacon" := by decide
  rw [hat] at hbeacon
  refine ⟨rfl, rfl, hcalls.trans (by decide), (hfailures rfl).trans (by decide), ?_⟩
  exact Option.some.inj hbeacon ▸ hname

end Linker

end EffectLink
