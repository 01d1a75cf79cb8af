import EffectLink.Artifact.Record
import EffectLink.Declaration.Check
import EffectLink.Diagnostic.Queue
import EffectLink.Disk
import EffectLink.Program.Linking
import EffectLink.Program.Resolution
import EffectLink.Shader.Source

/-! Linking of a whole effect. All declarations and programs are checked first, so that one run
reports every problem; the programs that pass share one pool of shaders, each compiled once. -/

namespace EffectLink

/-- What a link run is asked to do. -/
structure Job where
  header : Header
  options : LinkOptions
  /-- Directory of the artifacts. -/
  outDir : String
  /-- Source text of a shader, or why there is none. -/
  generate : Header → Shader → Except String String

def Job.standard (header : Header) (options : LinkOptions) (outDir : String) : Job :=
  { header, options, outDir
    generate := fun _ shader => shader.source.mapError SourceError.message }

/-- What a run changes: the diagnostics, the files, and what it has asked of the backend and the file
system. -/
structure Session where
  queue : Queue
  disk : Disk
  calls : List Call

namespace Session

def report (s : Session) (ds : List Diagnostic) : Session := { s with queue := s.queue.addAll ds }

def call (s : Session) (c : Call) : Session := { s with calls := s.calls ++ [c] }

end Session

/-- A program and whether it is still going to be written. -/
structure LinkedProgram where
  program : Program
  ok : Bool
  deriving DecidableEq

structure LinkedEffect where
  programs : List LinkedProgram
  pool : Pool
  deriving DecidableEq

/-- What a run wrote, and the programs it gave up. -/
structure Report where
  artifacts : List String
  failed : List String
  deriving DecidableEq

def Report.isSuccess (r : Report) : Bool := r.failed.isEmpty

namespace Linker

structure ValidatedAll where
  programs : List LinkedProgram
  table : SymbolTable
  faults : List Diagnostic

/-- Collects and validates the programs in order; each finds the names of those before it. -/
def validateAll (options : LinkOptions) : SymbolTable → List ProgramDecl → ValidatedAll
  | t, [] => ⟨[], t, []⟩
  | t, decl :: rest =>
    let v := (Program.ofDecl decl).validate t options
    let more := validateAll options v.table rest
    { programs := ⟨v.program, v.faults.isEmpty⟩ :: more.programs
      table := more.table
      faults := v.faults ++ more.faults }

structure ResolvedAll where
  programs : List LinkedProgram
  pool : Pool
  diagnostics : List Diagnostic

/-- Gives shaders to the programs that have passed so far. -/
def resolveAll (symbols : SymbolTable) (header : Header) : Pool → List LinkedProgram → ResolvedAll
  | pool, [] => ⟨[], pool, []⟩
  | pool, linked :: rest =>
    if linked.ok then
      let r := linked.program.resolve symbols header pool
      let more := resolveAll symbols header r.pool rest
      { more with
        programs := ⟨r.program, r.ok⟩ :: more.programs
        diagnostics := r.diagnostics ++ more.diagnostics }
    else
      let more := resolveAll symbols header pool rest
      { more with programs := linked :: more.programs }

/-- Letters, digits, underscores and hyphens stay; the rest become underscores. -/
def stemChar (c : Char) : Char := if c.isAlphanum || c == '_' || c == '-' then c else '_'

/-- The name of a source file; underscores at its end are dropped. -/
def dumpStem (identity : String) : String :=
  String.ofList (((identity.toList.map stemChar).reverse.dropWhile (· == '_')).reverse)

def dumpPath (outDir : String) (shader : Shader) : String :=
  Path.join outDir s!"{dumpStem shader.identity}.{shader.stage.extension}.glsl"

/-- Writes the source of a shader next to the artifacts. -/
def dumpSource (outDir : String) (shader : Shader) (source : String) (s : Session)
    (medium : Medium := Disk.writeBelow) : Session :=
  let path := dumpPath outDir shader
  let (disk, outcome) := medium s.disk outDir path (Utf8.encode source)
  let written := { s.call (.write path) with disk }
  match outcome with
  | .ok _ => written
  | .error fault =>
    written.report [.error .ioFailure s!"cannot write '{path}': {fault.message}"
      shader.function.location]

variable {U : Type}

/-- Generates and compiles one shader; a shader that fails has no unit. -/
def compileShader (job : Job) (backend : Backend U) (s : Session) (shader : Shader)
    (medium : Medium := Disk.writeBelow) : Session × Option U :=
  let fault (message : String) : Diagnostic :=
    (Diagnostic.error .compileFailure message shader.function.location).inContext
      s!"shader '{shader.identity}'"
  match job.generate job.header shader with
  | .error message =>
    (s.report [fault s!"cannot generate {shader.stage.label} source: {message}"], none)
  | .ok source =>
    let dumped :=
      if job.header.switches.dumpSources then dumpSource job.outDir shader source s medium else s
    let called := dumped.call (.compile shader.stage source)
    match backend.compile job.header shader.identity shader.stage source with
    | .ok unit => (called, some unit)
    | .error log =>
      (called.report [(fault s!"{shader.stage.label} shader failed to compile").withNote log], none)

/-- Compiles the shaders in order. -/
def compileAll (job : Job) (backend : Backend U) (s : Session) (shaders : List Shader)
    (medium : Medium := Disk.writeBelow) : Session × List (Option U) :=
  match shaders with
  | [] => (s, [])
  | shader :: rest =>
    let (compiled, unit) := compileShader job backend s shader medium
    let (final, units) := compileAll job backend compiled rest medium
    (final, unit :: units)

/-- The compiled shaders by pool position, for targets that need them. -/
def units (job : Job) (backend : Backend U) (pool : Pool) (s : Session)
    (medium : Medium := Disk.writeBelow) : Session × List (Option U) :=
  if (Strategy.ofHeader job.header).needsUnits then compileAll job backend s pool.shaders medium
  else (s, [])

/-- Links a program and gives what it reported. -/
def linkOne (backend : Backend U) (units : List (Option U)) (header : Header)
    (linked : LinkedProgram) : LinkedProgram × List Diagnostic :=
  if linked.ok then
    let r := linked.program.linkWith backend units header
    (⟨r.program, r.ok⟩, r.diagnostics)
  else (linked, [])

/-- What linking a program asks of its object. -/
def objectCalls (backend : Backend U) (units : List (Option U)) (header : Header)
    (linked : LinkedProgram) : List Call :=
  if linked.ok then
    (linked.program.linkWith backend units header).calls.map (.object linked.program.name)
  else []

/-- One program after the other into one queue. -/
def reportInTurn (queue : Queue) (reports : List (List Diagnostic)) : Queue :=
  reports.foldl Queue.addAll queue

/-- Every program into a fork of its own, merged in program order. -/
def reportMerged (queue : Queue) (reports : List (List Diagnostic)) : Queue :=
  (reports.map fun ds => queue.fork.addAll ds).foldl Queue.merge queue

/-- Links all programs. Side by side, the objects of different programs are used in no certain order;
their calls are listed by program all the same. -/
def linkAll (job : Job) (backend : Backend U) (units : List (Option U))
    (programs : List LinkedProgram) (s : Session) : Session × List LinkedProgram :=
  let outcomes := programs.map (linkOne backend units job.header)
  let reports := outcomes.map (·.2)
  let queue :=
    if job.options.parallel then reportMerged s.queue reports else reportInTurn s.queue reports
  let calls := s.calls ++ programs.flatMap (objectCalls backend units job.header)
  ({ s with queue, calls }, outcomes.map (·.1))

/-- Everything up to the writing of artifacts. Faults in declarations are recognized by the errors
that the queue counts for them. -/
def link (job : Job) (backend : Backend U) (effect : Effect) (s : Session)
    (medium : Medium := Disk.writeBelow) : Session × LinkedEffect :=
  let checked := effect.check .empty
  let declared := s.report checked.faults
  let sound := declared.queue.errors == s.queue.errors
  let validated := validateAll job.options checked.table effect.programs
  let programs := validated.programs.map fun linked => { linked with ok := linked.ok && sound }
  let resolved := resolveAll validated.table job.header .empty programs
  let reported := (declared.report validated.faults).report resolved.diagnostics
  let (compiled, units) := units job backend resolved.pool reported medium
  let (final, programs) := linkAll job backend units resolved.programs compiled
  (final, ⟨programs, resolved.pool⟩)

def artifactPath (outDir name : String) : String := Path.join outDir (name ++ ".fxb")

/-- Writes the artifact of one program, or lists the program as failed. -/
def writeOne (job : Job) (pool : Pool) (medium : Medium) (state : Session × Report)
    (linked : LinkedProgram) : Session × Report :=
  let (s, report) := state
  let program := linked.program
  if linked.ok then
    let path := artifactPath job.outDir program.name
    let (disk, outcome) := medium s.disk job.outDir path (program.artifact pool)
    let written := { s.call (.write path) with disk }
    match outcome with
    | .ok _ => (written, { report with artifacts := report.artifacts ++ [path] })
    | .error fault =>
      let fault := (Diagnostic.error .ioFailure s!"cannot write '{path}': {fault.message}"
        program.location).inProgram program.name
      (written.report [fault], { report with failed := report.failed ++ [program.name] })
  else (s, { report with failed := report.failed ++ [program.name] })

def write (job : Job) (linked : LinkedEffect) (s : Session) (medium : Medium := Disk.writeBelow) :
    Session × Report :=
  linked.programs.foldl (writeOne job linked.pool medium) (s, ⟨[], []⟩)

/-- Links and writes every program of an effect within one backend session. -/
def run (job : Job) (backend : Backend U) (effect : Effect) (s : Session)
    (medium : Medium := Disk.writeBelow) : Session × Report :=
  let started := s.call .acquire
  match backend.acquire with
  | .error message =>
    let fault := Diagnostic.plain .error .internalError
      s!"cannot start backend '{backend.name}': {message}"
    (started.report [fault], ⟨[], effect.programs.map (·.name)⟩)
  | .ok _ =>
    let (linked, result) := link job backend effect started medium
    let (written, report) := write job result linked medium
    (written.call .release, report)

end Linker

end EffectLink
