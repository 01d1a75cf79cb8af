import EffectLink.Diagnostic.Basic
import EffectLink.Program.Basic
import EffectLink.Symbol

namespace EffectLink

structure LinkOptions where
  /-- Check that adjacent stages fit together. -/
  interfaceValidation : Bool
  /-- Link programs side by side. -/
  parallel : Bool
  deriving DecidableEq

def LinkOptions.standard : LinkOptions := ⟨true, false⟩

namespace Program

/-- Keys that an earlier entry has already; `earlier` holds the keys before them. -/
def repeatedKeys : List String → List AnnotationEntry → List String
  | _, [] => []
  | earlier, entry :: rest =>
    if earlier.contains entry.key then entry.key :: repeatedKeys earlier rest
    else repeatedKeys (entry.key :: earlier) rest

def annotationFaults (p : Program) : List Diagnostic :=
  match p.annotation with
  | none => []
  | some annotation =>
    (repeatedKeys [] annotation.entries).map fun key =>
      .error .redefinition s!"annotation key '{key}' is defined more than once" annotation.location

def rowFaults (p : Program) : List Diagnostic :=
  p.invalidRows.map fun row =>
    .error .invalidRow s!"invalid program flag '{row.key}'" row.location

/-- An interface has to be a variable that declares a subroutine prototype. -/
def interfaceFaults (symbols : SymbolTable) (location : Location) (name : String) :
    List Diagnostic :=
  match symbols.get? name with
  | none => [.unresolved "subroutine interface" name location]
  | some (.global declared) =>
    if declared.isPrototype then []
    else [.error .kindMismatch s!"symbol '{name}' is not of subroutine type" location]
  | some other => [.kindMismatch name "subroutine prototype" other.kind.text location]

/-- An implementation has to be a subroutine declared as one. -/
def implementationFaults (symbols : SymbolTable) (location : Location) (name : String) :
    List Diagnostic :=
  match symbols.resolveSubroutine name with
  | .ok declared =>
    if declared.kind = .implementation then []
    else [.error .kindMismatch
      s!"subroutine '{name}' must be declared as a subroutine implementation" location]
  | .error (.mismatch _ expected found) => [.kindMismatch name expected.text found.text location]
  | .error (.undefined _) => [.unresolved "subroutine implementation" name location]

def bindingFaults (p : Program) (symbols : SymbolTable) : List Diagnostic :=
  p.stages.toList.flatMap fun
    | none => []
    | some slot => slot.bindings.entries.flatMap fun binding =>
      interfaceFaults symbols slot.location binding.1 ++
        implementationFaults symbols slot.location binding.2

def renderStateFaults (p : Program) (symbols : SymbolTable) : List Diagnostic :=
  match p.renderState with
  | none => [.error .missingSlot "program has no RenderState" p.renderStateLocation]
  | some row =>
    match symbols.resolveRenderState row.name with
    | .ok _ => []
    | .error (.mismatch _ expected found) =>
      [.kindMismatch row.name expected.text found.text row.location]
    | .error (.undefined _) => [.unresolved "render state" row.name row.location]

/-- The shader function of a stage, or what is wrong with it. -/
def stageFunction (symbols : SymbolTable) (stage : Stage) (slot : StageSlot) :
    Except Diagnostic Function :=
  match symbols.resolveFunction slot.function with
  | .ok function =>
    if function.isShader then .ok function
    else .error (.error .kindMismatch
      s!"function '{slot.function}' is not marked as a shader" slot.location)
  | .error (.mismatch _ expected found) =>
    .error (.kindMismatch slot.function expected.text found.text slot.location)
  | .error (.undefined _) =>
    .error (.unresolved s!"{stage.label} shader" slot.function slot.location)

/-- The shader functions of the stages that have one. -/
def functions (p : Program) (symbols : SymbolTable) : PerStage (Option Function) :=
  .ofFn fun stage => (p.slot stage).bind fun slot => (stageFunction symbols stage slot).toOption

def functionFaults (p : Program) (symbols : SymbolTable) : List Diagnostic :=
  Stage.all.flatMap fun stage =>
    match p.slot stage with
    | none => []
    | some slot =>
      match stageFunction symbols stage slot with
      | .ok _ => []
      | .error fault => [fault]

/-- Hull and domain shaders come in pairs. -/
def pairFaults (p : Program) : List Diagnostic :=
  let unpaired (present missing : Stage) (slot : StageSlot) : Diagnostic :=
    .error .unpairedTessellation s!"{present.label} shader without a {missing.label} shader"
      slot.location
  match p.slot .hull, p.slot .domain with
  | some slot, none => [unpaired .hull .domain slot]
  | none, some slot => [unpaired .domain .hull slot]
  | _, _ => []

/-- The hull shader has to write as many control points as the domain shader reads. -/
def patchFaults (functions : PerStage (Option Function)) : List Diagnostic :=
  match functions.hull, functions.domain with
  | some hull, some domain =>
    let written := hull.attributeValue .outputVertices
    let expected := domain.attributeValue .inputVertices
    if written = expected then []
    else [.error .patchMismatch
      (s!"hull shader '{hull.name}' outputs {written} control points but " ++
        s!"domain shader '{domain.name}' expects {expected}") domain.location]
  | _, _ => []

/-- What a stage reads that the stage before it does not write: too many inputs, and inputs of
another type. -/
def linkageFaults (producer consumer : Stage × Function) : List Diagnostic :=
  let (source, writer) := producer
  let (target, reader) := consumer
  let outputs := writer.outputs
  let inputs := reader.inputs
  (if outputs.length < inputs.length then
    [.error .interfaceCount
      (s!"{target.label} shader '{reader.name}' reads {inputs.length} inputs but " ++
        s!"{source.label} shader '{writer.name}' writes only {outputs.length}") reader.location]
  else []) ++
  (inputs.zip outputs).flatMap fun (input, output) =>
    if input.compatible output then []
    else [.error .interfaceType
      (s!"cannot implicitly convert from type '{output.type.description}' ({output.name}) " ++
        s!"to type '{input.type.description}' ({input.name}) in linkage between " ++
        s!"{source.label} ({writer.name}) and {target.label} ({reader.name}) shaders")
      input.location]

/-- The populated graphics stages with their functions, if all of them have one. -/
def chain (p : Program) (functions : PerStage (Option Function)) :
    Option (List (Stage × Function)) :=
  (Stage.graphics.filter p.isPopulated).mapM fun stage =>
    (functions.get stage).map fun function => (stage, function)

def chainFaults (p : Program) (functions : PerStage (Option Function)) : List Diagnostic :=
  match p.chain functions with
  | none => []
  | some links => (links.zip links.tail).flatMap fun pair => linkageFaults pair.1 pair.2

/-- Everything wrong with a program whose name is its own. -/
def violations (p : Program) (symbols : SymbolTable) (options : LinkOptions) : List Diagnostic :=
  let functions := p.functions symbols
  let faults :=
    p.annotationFaults ++ p.rowFaults ++ p.bindingFaults symbols ++ p.renderStateFaults symbols ++
    p.functionFaults symbols ++
    (if options.interfaceValidation then
      p.pairFaults ++ patchFaults functions ++ p.chainFaults functions
    else [])
  faults.map (·.inProgram p.name)

end Program

/-- A program after validation, the table with its name, and what is wrong with it. -/
structure Validated where
  program : Program
  table : SymbolTable
  faults : List Diagnostic

/-- Registers the program and validates it; the patch size is that of the hull shader. -/
def Program.validate (p : Program) (symbols : SymbolTable) (options : LinkOptions) : Validated :=
  match symbols.register (.program ⟨p.name, p.location⟩) with
  | .error taken =>
    ⟨p, symbols, [.redefinition "program" p.name p.location taken.previous]⟩
  | .ok extended =>
    let patchSize := match (p.functions extended).hull with
      | some hull => hull.attributeValue .inputVertices
      | none => p.patchSize
    ⟨{ p with patchSize }, extended, p.violations extended options⟩

end EffectLink
