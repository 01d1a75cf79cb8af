import EffectLink.Backend
import EffectLink.Diagnostic.Basic
import EffectLink.Header
import EffectLink.Program.Basic
import EffectLink.Text.Blank

namespace EffectLink

/-- A uniform's name without a trailing index in brackets. -/
def stripIndex (name : String) : String :=
  match name.toList.reverse with
  | ']' :: rest =>
    match Text.splitLast '[' rest.reverse with
    | some (base, index) =>
      if !index.isEmpty && index.all Char.isDigit then String.ofList base else name
    | none => name
  | _ => name

/-- Adds one live uniform. Only data in a block has an offset. -/
def Reflection.addUniform (r : Reflection) (u : LiveUniform) : Reflection :=
  { r with
    uniforms := r.uniforms ++ [u.name]
    offsets := match u.offset with
      | some offset =>
        if u.type < resourceTypes then r.offsets.insert (stripIndex u.name) offset else r.offsets
      | none => r.offsets }

def Reflection.addLive (r : Reflection) (live : LiveSet) : Reflection :=
  live.uniforms.foldl addUniform { r with blocks := r.blocks ++ live.blocks }

/-- A program after backend linking, and what was reported and asked on the way. -/
structure BackendLinked where
  program : Program
  diagnostics : List Diagnostic
  ok : Bool
  calls : List ObjectCall

namespace Program

variable {U : Type}

/-- The units of the stages, in pipeline order. A shader that did not compile was reported when it was
compiled, so it adds no fault here. -/
def stageUnits (p : Program) (units : List (Option U)) :
    List Stage → Except (List Diagnostic) (List (Stage × U))
  | [] => .ok []
  | stage :: rest =>
    match p.slot stage with
    | none => p.stageUnits units rest
    | some slot =>
      match slot.shader.bind fun id => units[id]? with
      | some (some unit) =>
        match p.stageUnits units rest with
        | .ok more => .ok ((stage, unit) :: more)
        | .error faults => .error faults
      | some none => .error []
      | none => .error [(Diagnostic.error .internalError
          s!"{stage.label} stage has no compiled shader" slot.location).inProgram p.name]

def linkFault (p : Program) (code : Code) (message log : String) : Diagnostic :=
  ((Diagnostic.error code message p.location).inProgram p.name).withNote log

/-- The calls that make the object of a program: stages are added up to the first without a unit. -/
def assembly (p : Program) (units : List (Option U)) : List ObjectCall :=
  let added := p.populated.takeWhile fun stage =>
    ((p.slots.get stage).shader.bind fun id => units[id]?).any Option.isSome
  .create :: added.map .add

/-- Records the binary of one stage, or the failure to produce it. -/
def addBinary (binary : Stage → Except String (List UInt32)) (r : BackendLinked) (stage : Stage) :
    BackendLinked :=
  match r.program.slot stage with
  | none => r
  | some slot =>
    let calls := r.calls ++ [.translate stage]
    match binary stage with
    | .ok words => { r with program := r.program.setSlot stage { slot with binary := words }, calls }
    | .error log =>
      let fault := ((Diagnostic.error .binaryFailure
        s!"failed to translate {stage.label} stage to binary"
        slot.location).inProgram r.program.name).withNote log
      { r with diagnostics := r.diagnostics ++ [fault], ok := false, calls }

def linkAndReflect (p : Program) (backend : Backend U) (units : List (Option U))
    (binaries : Bool) : BackendLinked :=
  let assembly := p.assembly units
  match p.stageUnits units Stage.all with
  | .error faults => ⟨p, faults, false, assembly⟩
  | .ok stages =>
    match backend.link p.name stages with
    | .error log =>
      ⟨p, [p.linkFault .linkFailure s!"failed to link program '{p.name}'" log], false,
        assembly ++ [.link]⟩
    | .ok _ =>
      let calls := assembly ++ [.link, .reflect]
      match backend.reflect p.name stages with
      | .error log =>
        ⟨p, [p.linkFault .reflectionFailure s!"failed to reflect program '{p.name}'" log], false, calls⟩
      | .ok live =>
        let reflected := { p with reflection := p.reflection.addLive live }
        if binaries then
          Stage.all.foldl (addBinary (backend.binary p.name stages)) ⟨reflected, [], true, calls⟩
        else ⟨reflected, [], true, calls⟩

/-- Links a program as its target asks for. `units` holds the compiled shaders by pool position. -/
def linkWith (p : Program) (backend : Backend U) (units : List (Option U)) (header : Header) :
    BackendLinked :=
  match Strategy.ofHeader header with
  | .portable => p.linkAndReflect backend units true
  | .reflect => p.linkAndReflect backend units false
  | .stub => ⟨p, [], true, []⟩
  | .unsupported =>
    ⟨p, [(Diagnostic.warning .noStrategy s!"no backend strategy for target {header.text}"
      p.location).inProgram p.name], true, []⟩

end Program

end EffectLink
