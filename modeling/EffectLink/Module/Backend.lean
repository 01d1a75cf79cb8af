import EffectLink.Module.Linked

namespace EffectLink

/-- Why a source is no module. -/
inductive FrontendFault where
  | syntactic (log : String)
  | semantic (log : String)
  deriving DecidableEq

/-- Turns the source of a stage into a module. -/
abbrev Frontend := Stage → String → Except FrontendFault Module

inductive StageFault where
  | unsupported (stage : Stage)
  | syntactic (stage : Stage) (log : String)
  | semantic (stage : Stage) (log : String)
  deriving DecidableEq

def StageFault.message : StageFault → String
  | .unsupported stage => s!"{stage.label} shaders are not supported by the naga backend"
  | .syntactic stage log => s!"{stage.label} shader failed to parse: {log}"
  | .semantic stage log => s!"{stage.label} shader failed validation: {log}"

namespace Frontend

def compile (frontend : Frontend) (stage : Stage) (source : String) :
    Except StageFault StageUnit :=
  if stage.hasEntryPoints then
    match frontend stage source with
    | .ok content => .ok ⟨stage, content⟩
    | .error (.syntactic log) => .error (.syntactic stage log)
    | .error (.semantic log) => .error (.semantic stage log)
  else .error (.unsupported stage)

/-- The linked program object of some units. -/
def object (units : List (Stage × StageUnit)) : ProgramObject :=
  (units.foldl (fun p unit => p.add unit.2) ProgramObject.empty).link

def backend (frontend : Frontend) : Backend StageUnit :=
  { name := "naga"
    acquire := .ok ()
    compile := fun _ _ stage source => (frontend.compile stage source).mapError StageFault.message
    link := fun _ units =>
      let linked := object units
      if linked.isLinked then .ok () else .error linked.log
    reflect := fun _ units => .ok (object units).reflect.live
    binary := fun _ units stage =>
      ((object units).binary stage).mapError ProgramObject.BinaryFault.message }

end Frontend

end EffectLink
