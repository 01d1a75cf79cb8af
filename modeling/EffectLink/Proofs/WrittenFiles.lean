import EffectLink.Proofs.DiskWrites
import EffectLink.Proofs.StandaloneLink

namespace EffectLink

namespace Linker

variable {U : Type} {medium : Medium} (job : Job) (backend : Backend U) (effect : Effect)
  (s : Session)

/-- The source of a shader as a file, where sources are asked for and there is one. -/
def shaderFiles (shader : Shader) : List (String × Bytes) :=
  if job.header.switches.dumpSources then
    match job.generate job.header shader with
    | .ok source => [(dumpPath job.outDir shader, Utf8.encode source)]
    | .error _ => []
  else []

/-- The sources that are written while the shaders of a pool are compiled, if they are. -/
def dumpFiles (pool : Pool) : List (String × Bytes) :=
  if (Strategy.ofHeader job.header).needsUnits then pool.shaders.flatMap (shaderFiles job) else []

/-- The session after the source of a shader was written, where sources are asked for. -/
def dumped (shader : Shader) (source : String) (medium : Medium := Disk.writeBelow) : Session :=
  if job.header.switches.dumpSources then dumpSource job.outDir shader source s medium else s

/-- The fault of a shader that has no source, or whose source does not compile. -/
def shaderFault (shader : Shader) (message : String) : Diagnostic :=
  (Diagnostic.error .compileFailure message shader.function.location).inContext
    s!"shader '{shader.identity}'"

/-- What compiling one shader can come to: there is no source, or the source is written and then compiles
or does not. -/
theorem compileShader_cases (shader : Shader) :
    (∃ message, job.generate job.header shader = .error message ∧
      compileShader job backend s shader medium =
        (s.report [shaderFault shader
          s!"cannot generate {shader.stage.label} source: {message}"], none)) ∨
    (∃ source, job.generate job.header shader = .ok source ∧
      let called := (dumped job s shader source medium).call (.compile shader.stage source)
      ((∃ unit, backend.compile job.header shader.identity shader.stage source = .ok unit ∧
        compileShader job backend s shader medium = (called, some unit)) ∨
      (∃ log, backend.compile job.header shader.identity shader.stage source = .error log ∧
        compileShader job backend s shader medium =
          (called.report [(shaderFault shader
            s!"{shader.stage.label} shader failed to compile").withNote log], none)))) := by
  unfold compileShader
  cases job.generate job.header shader with
  | error message => exact Or.inl ⟨message, rfl, rfl⟩
  | ok source =>
    refine Or.inr ⟨source, rfl, ?_⟩
    dsimp only
    cases backend.compile job.header shader.identity shader.stage source with
    | ok unit => exact Or.inl ⟨unit, rfl, rfl⟩
    | error log => exact Or.inr ⟨log, rfl, rfl⟩

theorem dumpSource_disk (outDir : String) (shader : Shader) (source : String) :
    (dumpSource outDir shader source s medium).disk =
      s.disk.store outDir (dumpPath outDir shader, Utf8.encode source) medium := by
  unfold dumpSource Disk.store
  dsimp only
  split <;> rfl

theorem dumped_disk {shader : Shader} {source : String}
    (h : job.generate job.header shader = .ok source) :
    (dumped job s shader source medium).disk =
      s.disk.storeAll job.outDir (shaderFiles job shader) medium := by
  unfold dumped shaderFiles
  rw [h]
  split
  · exact dumpSource_disk s job.outDir shader source
  · rfl

theorem compileShader_disk (shader : Shader) :
    (compileShader job backend s shader medium).1.disk =
      s.disk.storeAll job.outDir (shaderFiles job shader) medium := by
  rcases compileShader_cases job backend s shader with
    ⟨message, hnone, hr⟩ | ⟨source, hsource, ⟨unit, -, hr⟩ | ⟨log, -, hr⟩⟩
  · have hfile : shaderFiles job shader = [] := by
      unfold shaderFiles
      rw [hnone]
      exact ite_self []
    rw [hr, hfile]
    rfl
  · rw [hr]
    exact dumped_disk job s hsource
  · rw [hr]
    exact dumped_disk job s hsource

theorem compileAll_disk (shaders : List Shader) :
    (compileAll job backend s shaders medium).1.disk =
      s.disk.storeAll job.outDir (shaders.flatMap (shaderFiles job)) medium := by
  induction shaders generalizing s with
  | nil => rfl
  | cons shader rest ih =>
    rw [List.flatMap_cons, Disk.storeAll_append, ← compileShader_disk job backend s shader]
    exact ih _

theorem units_disk (pool : Pool) :
    (units job backend pool s medium).1.disk =
      s.disk.storeAll job.outDir (dumpFiles job pool) medium := by
  unfold units dumpFiles
  split
  · exact compileAll_disk job backend s pool.shaders
  · rfl

theorem link_disk :
    (link job backend effect s medium).1.disk =
      s.disk.storeAll job.outDir (dumpFiles job (link job backend effect s medium).2.pool)
        medium := by
  rw [pool_link, link_eq]
  exact units_disk job backend (reported job effect s) (resolution job effect s).pool

/-- The artifact of a program as a file, if the program has been linked. -/
def programFiles (pool : Pool) (linked : LinkedProgram) : List (String × Bytes) :=
  if linked.ok then [(artifactPath job.outDir linked.program.name, linked.program.artifact pool)]
  else []

/-- The artifacts of the programs that have been linked. -/
def artifactFiles (linked : LinkedEffect) : List (String × Bytes) :=
  linked.programs.flatMap (programFiles job linked.pool)

/-- The fault of a program whose artifact cannot be written. -/
def writeFault (p : Program) (fault : FileError) : Diagnostic :=
  (Diagnostic.error .ioFailure
    s!"cannot write '{artifactPath job.outDir p.name}': {fault.message}" p.location).inProgram p.name

/-- What writing one program can come to: it was given up before, it is written, or it fails now. -/
theorem writeOne_cases (pool : Pool) (report : Report) (linked : LinkedProgram) :
    let called := s.call (.write (artifactPath job.outDir linked.program.name))
    (linked.ok = false ∧ writeOne job pool medium (s, report) linked =
      (s, { report with failed := report.failed ++ [linked.program.name] })) ∨
    (linked.ok = true ∧ ∃ disk,
      medium s.disk job.outDir (artifactPath job.outDir linked.program.name)
        (linked.program.artifact pool) = (disk, .ok ()) ∧
      writeOne job pool medium (s, report) linked = ({ called with disk },
        { report with
          artifacts := report.artifacts ++ [artifactPath job.outDir linked.program.name] })) ∨
    (linked.ok = true ∧ ∃ disk fault,
      medium s.disk job.outDir (artifactPath job.outDir linked.program.name)
        (linked.program.artifact pool) = (disk, .error fault) ∧
      writeOne job pool medium (s, report) linked =
        (({ called with disk } : Session).report [writeFault job linked.program fault],
          { report with failed := report.failed ++ [linked.program.name] })) := by
  unfold writeOne
  cases linked.ok with
  | false => exact Or.inl ⟨rfl, rfl⟩
  | true =>
    refine Or.inr ?_
    dsimp only
    rcases hwritten : medium s.disk job.outDir (artifactPath job.outDir linked.program.name)
      (linked.program.artifact pool) with ⟨disk, outcome⟩
    cases outcome with
    | ok _ => exact Or.inl ⟨rfl, disk, rfl, rfl⟩
    | error fault => exact Or.inr ⟨rfl, disk, fault, rfl, rfl⟩

theorem writeOne_disk (pool : Pool) (report : Report) (linked : LinkedProgram) :
    (writeOne job pool medium (s, report) linked).1.disk =
      s.disk.storeAll job.outDir (programFiles job pool linked) medium := by
  unfold programFiles
  rcases writeOne_cases job s pool report linked with
    ⟨hok, hnext⟩ | ⟨hok, disk, hwritten, hnext⟩ | ⟨hok, disk, fault, hwritten, hnext⟩
  · rw [hnext, hok]
    rfl
  · rw [hnext, hok]
    exact (congrArg Prod.fst hwritten).symm
  · rw [hnext, hok]
    exact (congrArg Prod.fst hwritten).symm

theorem foldl_writeOne_disk (pool : Pool) (programs : List LinkedProgram) (report : Report) :
    (programs.foldl (writeOne job pool medium) (s, report)).1.disk =
      s.disk.storeAll job.outDir (programs.flatMap (programFiles job pool)) medium := by
  induction programs generalizing s report with
  | nil => rfl
  | cons linked rest ih =>
    rw [List.flatMap_cons, Disk.storeAll_append, ← writeOne_disk job s pool report linked]
    exact ih _ _

theorem write_disk (linked : LinkedEffect) :
    (write job linked s medium).1.disk =
      s.disk.storeAll job.outDir (artifactFiles job linked) medium :=
  foldl_writeOne_disk job s linked.pool linked.programs ⟨[], []⟩

theorem run_of_acquire_error {message : String} (h : backend.acquire = .error message) :
    run job backend effect s medium =
      ((s.call .acquire).report [.plain .error .internalError
        s!"cannot start backend '{backend.name}': {message}"],
        ⟨[], effect.programs.map (·.name)⟩) := by
  unfold run
  rw [h]

theorem run_of_acquire_ok (h : backend.acquire = .ok ()) :
    run job backend effect s medium =
      let linked := link job backend effect (s.call .acquire) medium
      let written := write job linked.2 linked.1 medium
      (written.1.call .release, written.2) := by
  unfold run
  rw [h]

/-- Everything that a run sets out to write: nothing, if there is no backend, and otherwise the sources
and then the artifacts. -/
def files : List (String × Bytes) :=
  match backend.acquire with
  | .error _ => []
  | .ok _ =>
    let linked := (link job backend effect (s.call .acquire)).2
    dumpFiles job linked.pool ++ artifactFiles job linked

theorem run_disk (medium : Medium) :
    (run job backend effect s medium).1.disk =
      s.disk.storeAll job.outDir (files job backend effect s) medium := by
  unfold files
  cases hacquire : backend.acquire with
  | error message =>
    rw [run_of_acquire_error job backend effect s hacquire]
    rfl
  | ok _ =>
    rw [run_of_acquire_ok job backend effect s hacquire]
    dsimp only
    rw [Disk.storeAll_append]
    refine (write_disk job _ _).trans ?_
    rw [link_disk, link_result_medium]
    rfl

end Linker

end EffectLink
