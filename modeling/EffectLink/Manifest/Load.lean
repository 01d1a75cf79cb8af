import EffectLink.Disk
import EffectLink.Manifest.Basic
import EffectLink.Text.Blank
import EffectLink.Text.Capital

namespace EffectLink

inductive ManifestError where
  | unreadable (path : String) (fault : FileError)
  | invalid (path : String) (fault : Json.Fault)
  | emptyType (name : String) (location : Location)
  /-- A function with inline code and a code file. -/
  | ambiguousCode (function : String) (location : Location)
  deriving DecidableEq

def ManifestError.message : ManifestError → String
  | .unreadable path fault => s!"cannot read '{path}': {fault.message}"
  | .invalid path fault => s!"'{path}' is not a valid manifest: {fault.message}"
  | .emptyType name location => s!"{location.text}: '{name}' has an empty type"
  | .ambiguousCode function location =>
    s!"{location.text}: function '{function}' has both `code` and `code_file`"

/-- Drops every underscore and makes the character after it a capital; `raised` says whether the next
character is to be one. -/
def joinCapitalized : Bool → List Char → List Char
  | _, [] => []
  | raised, c :: rest =>
    if c = '_' then joinCapitalized true rest
    else (if raised then Text.capital c else [c]) ++ joinCapitalized false rest

/-- The part of a path after its last separator, of either kind. -/
def fileName (path : List Char) : List Char :=
  (Text.pieces (fun c => c == '/' || c == '\\') path).getLastD []

/-- A file name without its last extension. -/
def fileStem (name : List Char) : List Char :=
  match Text.splitLast '.' name with
  | some halves => halves.1
  | none => name

/-- The file stem with its words capitalized and joined: `deferred_light.fx` names the effect
`DeferredLight`. -/
def effectNameOfPath (path : String) : String :=
  String.ofList (joinCapitalized true (fileStem (fileName path.toList)))

namespace Manifest

def parse (path text : String) : Except ManifestError Manifest :=
  (Json.parse manifest text).mapError (.invalid path)

def readFile (disk : Disk) (path : String) : Except ManifestError String :=
  (disk.readText path).mapError (.unreadable path)

def resolveType (owner : String) (location : Location) (name : String) :
    Except ManifestError DataType :=
  match DataType.ofName? name with
  | some type => .ok type
  | none => .error (.emptyType owner location)

/-- The place of a line in the effect's file. -/
def place (file : String) (line : UInt32) : Location := ⟨file, line.toNat⟩

/-- A member or parameter without a line of its own stands on its owner's line. -/
def ParameterEntry.resolve (file : String) (ownerLine : UInt32) (e : ParameterEntry) :
    Except ManifestError Parameter := do
  let location := place file (e.line.getD ownerLine)
  let type ← resolveType e.name location e.type
  return { name := e.name, type, arraySize := e.arraySize, location, direction := e.direction,
           slot := e.slot, attachment := e.attachment }

def StructureEntry.resolve (file : String) (e : StructureEntry) :
    Except ManifestError Structure := do
  let members ← e.members.mapM (·.resolve file e.line)
  return ⟨e.name, place file e.line, members⟩

def VariableEntry.resolve (file : String) (e : VariableEntry) : Except ManifestError Variable := do
  let location := place file e.line
  let type ← resolveType e.name location e.type
  return { name := e.name, location, type, arraySize := e.arraySize, isPrototype := e.isPrototype }

/-- The stage code of a function: inline, from a file, or none. -/
def FunctionEntry.stageCode (disk : Disk) (base file : String) (e : FunctionEntry) :
    Except ManifestError String :=
  match e.code, e.codeFile with
  | some _, some _ => .error (.ambiguousCode e.name (place file e.line))
  | some code, none => .ok code
  | none, some relative => readFile disk (Path.join base relative)
  | none, none => .ok ""

def FunctionEntry.resolve (disk : Disk) (base file : String) (e : FunctionEntry) :
    Except ManifestError Function := do
  let location := place file e.line
  let returnType ← match e.returnType with
    | some name => resolveType e.name location name
    | none => .ok (.builtin .void)
  let parameters ← e.parameters.mapM (·.resolve file e.line)
  let code ← e.stageCode disk base file
  return { name := e.name, location, returnType, parameters, isShader := e.isShader,
           attributes := e.attributes, code }

def ProgramEntry.resolve (file : String) (e : ProgramEntry) : ProgramDecl :=
  { name := e.name
    location := place file e.line
    rows := e.rows.map fun row => ⟨row.key, row.value, row.bindings, place file row.line⟩
    annotation := e.annotation.map fun list => ⟨place file list.line, list.entries⟩ }

/-- The effect of a manifest at `path`; code files are looked up from `base`. -/
def effect (m : Manifest) (disk : Disk) (path base : String) : Except ManifestError Effect := do
  let file := m.file.getD path
  let structures ← m.structures.mapM (·.resolve file)
  let globals ← m.globals.mapM (·.resolve file)
  let functions ← m.functions.mapM (·.resolve disk base file)
  return {
    name := m.name.getD (effectNameOfPath path)
    file
    structures
    globals
    subroutines := m.subroutines.map fun e => ⟨e.name, place file e.line, e.kind⟩
    renderStates := m.renderStates.map fun e => ⟨e.name, place file e.line⟩
    functions
    programs := m.programs.map (·.resolve file) }

/-- Reads the manifest at a path; code files are looked up next to it. -/
def load (disk : Disk) (path : String) : Except ManifestError Effect := do
  let text ← readFile disk path
  let m ← parse path text
  m.effect disk path ((Path.parent? path).getD "")

end Manifest

end EffectLink
