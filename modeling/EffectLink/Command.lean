import EffectLink.Artifact.Listing
import EffectLink.Diagnostic.Terminal
import EffectLink.Linker
import EffectLink.Manifest.Load
import EffectLink.Module.Backend

namespace EffectLink

inductive UsageError where
  | missingManifest
  | missingValue (option : String)
  | unexpected (argument : String)
  deriving DecidableEq

def UsageError.message : UsageError → String
  | .missingManifest => "missing effect manifest"
  | .missingValue option => s!"option '{option}' needs a value"
  | .unexpected argument => s!"unexpected argument '{argument}'"

structure CompileOptions where
  manifest : String
  outDir : String
  profile : String
  /-- Switches in the order they were given. -/
  switches : List String
  link : LinkOptions
  deriving DecidableEq

/-- The options as far as they have been read. -/
structure PendingOptions where
  manifest : Option String
  outDir : String
  profile : String
  switches : List String
  link : LinkOptions

def PendingOptions.start : PendingOptions := ⟨none, ".", "spv10", [], .standard⟩

def PendingOptions.finish (o : PendingOptions) : Except UsageError CompileOptions :=
  match o.manifest with
  | some manifest => .ok ⟨manifest, o.outDir, o.profile, o.switches, o.link⟩
  | none => .error .missingManifest

/-- A slash and one or more capitals. Anything else that starts with a slash is a path. -/
def isSwitch (argument : String) : Bool :=
  match argument.toList with
  | '/' :: name => !name.isEmpty && name.all Char.isUpper
  | _ => false

/-- The value of an option written as `--target=value`. -/
def targetValue? (argument : String) : Option String :=
  let flag := "--target=".toList
  if flag.isPrefixOf argument.toList then some (String.ofList (argument.toList.drop flag.length))
  else none

def isDashed (argument : String) : Bool := argument.toList.head? == some '-'

namespace CompileOptions

/-- Reads the arguments from left to right; the first problem decides. -/
def parseFrom (o : PendingOptions) : List String → Except UsageError CompileOptions
  | [] => o.finish
  | "-o" :: rest =>
    match rest with
    | [] => .error (.missingValue "-o")
    | value :: rest => parseFrom { o with outDir := value } rest
  | "--target" :: rest =>
    match rest with
    | [] => .error (.missingValue "--target")
    | value :: rest => parseFrom { o with profile := value } rest
  | "--no-interface-check" :: rest =>
    parseFrom { o with link := { o.link with interfaceValidation := false } } rest
  | "--parallel" :: rest => parseFrom { o with link := { o.link with parallel := true } } rest
  | argument :: rest =>
    match targetValue? argument with
    | some value => parseFrom { o with profile := value } rest
    | none =>
      if isSwitch argument then parseFrom { o with switches := o.switches ++ [argument] } rest
      else if isDashed argument || o.manifest.isSome then .error (.unexpected argument)
      else parseFrom { o with manifest := some argument } rest

def parse (arguments : List String) : Except UsageError CompileOptions :=
  parseFrom .start arguments

/-- The target with the switches applied. -/
def header? (o : CompileOptions) : Option Header :=
  (Header.ofProfile? o.profile).map (·.applySwitches o.switches)

end CompileOptions

inductive CompileError where
  | unknownProfile (profile : String)
  | manifest (cause : ManifestError)
  deriving DecidableEq

def CompileError.message : CompileError → String
  | .unknownProfile profile => Header.unknownProfile profile
  | .manifest cause => cause.message

/-- What a compilation did: its report, what it printed about it, and the disk it left. -/
structure Compilation where
  report : Report
  text : String
  disk : Disk

/-- The diagnostics in order of output, and a summary if there were errors or warnings. -/
def Queue.print (q : Queue) (styled : Bool) : String :=
  if q.errors + q.warnings = 0 then ""
  else String.join (q.sorted.map (·.block styled)) ++ summary styled q.errors q.warnings

/-- Loads, links and writes one effect. -/
def compileEffect (options : CompileOptions) (frontend : Frontend) (disk : Disk) (styled : Bool) :
    Except CompileError Compilation :=
  match options.header? with
  | none => .error (.unknownProfile options.profile)
  | some header =>
    match Manifest.load disk options.manifest with
    | .error cause => .error (.manifest cause)
    | .ok effect =>
      let job := Job.standard header options.link options.outDir
      let (session, report) := Linker.run job frontend.backend effect ⟨.empty .standard, disk, []⟩
      .ok ⟨report, session.queue.print styled, session.disk⟩

/-- What a command prints, the disk it leaves, and its exit code. -/
structure Outcome where
  code : Nat
  stdout : String
  stderr : String
  disk : Disk

namespace Command

def compileUsage : String :=
  "Usage: fxc compile <effect.json> -o <dir> --target <profile> [/NOSUB] [/O] [/OUTPUT]\n"

def usage : String :=
  "fxc - offline effect compiler\n\n" ++
  "Usage: fxc <command> [options]\n\n" ++
  "Commands:\n" ++
  "  compile <effect.json>  Link every program of an effect\n" ++
  "  dump <artifact.fxb>    Print a compiled program\n" ++
  "  help                   Show this help message\n" ++
  "  version                Show version information\n\n" ++
  "Compile options:\n" ++
  "  -o <dir>               Output directory (default: .)\n" ++
  "  --target <profile>     spv10 (default), glsl450, glsl330, hlsl5, c\n" ++
  "  /NOSUB                 Resolve subroutines statically\n" ++
  "  /OUTPUT                Write generated stage sources next to the artifacts\n" ++
  "  /O                     Optimize\n" ++
  "  --no-interface-check   Skip cross-stage interface validation\n" ++
  "  --parallel             Link programs on a thread pool\n\n" ++
  "Examples:\n" ++
  "  fxc compile sky.json -o build\n" ++
  "  fxc compile sky.json -o build --target glsl450 /NOSUB\n" ++
  "  fxc dump build/Sky.fxb\n\n" ++
  "Set RUST_LOG=debug for a trace of every phase.\n"

def version : String := "fxc 0.1.0\n"

/-- The line about programs that failed. -/
def failureLine (report : Report) : String :=
  let failed := report.failed.length
  let names := ", ".intercalate report.failed
  s!"error: {failed} of {failed + report.artifacts.length} programs failed: {names}\n"

def compile (arguments : List String) (frontend : Frontend) (disk : Disk) (terminal : Bool) :
    Outcome :=
  match CompileOptions.parse arguments with
  | .error fault => ⟨1, "", s!"error: {fault.message}\n" ++ compileUsage, disk⟩
  | .ok options =>
    match compileEffect options frontend disk (ColorMode.auto.styled terminal) with
    | .error fault => ⟨1, "", s!"error: {fault.message}\n", disk⟩
    | .ok done =>
      let written := String.join (done.report.artifacts.map fun path => s!"wrote {path}\n")
      if done.report.isSuccess then ⟨0, written, done.text, done.disk⟩
      else ⟨1, written, done.text ++ failureLine done.report, done.disk⟩

def dump (path : String) (disk : Disk) : Outcome :=
  match disk.read path with
  | .error fault => ⟨1, "", s!"error: cannot read '{path}': {fault.message}\n", disk⟩
  | .ok bytes =>
    match Record.decode bytes with
    | .error fault => ⟨1, "", s!"error: cannot read '{path}': {fault.message}\n", disk⟩
    | .ok record => ⟨0, record.listing, "", disk⟩

/-- Runs a command line, without the name of the program. -/
def run (arguments : List String) (frontend : Frontend) (disk : Disk) (terminal : Bool) : Outcome :=
  match arguments with
  | [] => ⟨0, usage, "", disk⟩
  | "compile" :: rest => compile rest frontend disk terminal
  | ["dump"] => ⟨1, "", "Usage: fxc dump <artifact.fxb>\n", disk⟩
  | "dump" :: path :: _ => dump path disk
  | command :: _ =>
    if command ∈ ["help", "--help", "-h"] then ⟨0, usage, "", disk⟩
    else if command ∈ ["version", "--version", "-V"] then ⟨0, version, "", disk⟩
    else ⟨1, usage, s!"Unknown command: {command}\n\n", disk⟩

end Command

end EffectLink
