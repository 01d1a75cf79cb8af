import EffectLink.Module.Basic

namespace EffectLink

mutual
/-- User locations of a value. An unbound aggregate has those of its members, and a builtin has none. -/
def Shape.locations : Shape → Option Binding → List UInt32
  | _, some (.location index) => [index]
  | _, some .builtin => []
  | .struct members, none => members.locations
  | _, none => []
def Members.locations : Members → List UInt32
  | .nil => []
  | .cons _ _ binding shape rest => shape.locations binding ++ rest.locations
end

namespace EntryPoint

def reads (e : EntryPoint) : List UInt32 :=
  e.arguments.flatMap fun argument => argument.1.locations argument.2

def writes (e : EntryPoint) : List UInt32 :=
  match e.result with
  | some result => result.1.locations result.2
  | none => []

end EntryPoint

/-- A module compiled for a stage. -/
structure StageUnit where
  stage : Stage
  content : Module

/-- Whether modules have entry points for the stage. -/
def Stage.hasEntryPoints : Stage → Bool
  | .vertex | .pixel | .compute => true
  | .hull | .domain | .geometry => false

/-- The unit's entry point of its own stage. -/
def StageUnit.entryPoint? (u : StageUnit) : Option EntryPoint :=
  if u.stage.hasEntryPoints then u.content.entryPoints.find? (·.stage == u.stage) else none

inductive InterfaceFault where
  | missingEntry (stage : Stage)
  | unwritten (consumer producer : Stage) (location : UInt32)
  deriving DecidableEq

def InterfaceFault.line : InterfaceFault → String
  | .missingEntry stage => s!"ERROR: Linking {stage.label} stage: Missing entry point\n"
  | .unwritten consumer producer location =>
    s!"ERROR: Linking {consumer.label} stage: input at location {location.toNat} " ++
      s!"is not written by the {producer.label} stage\n"

/-- The locations that the second unit reads and the first does not write. -/
def unmatched (producer consumer : StageUnit) : List InterfaceFault :=
  match producer.entryPoint?, consumer.entryPoint? with
  | some source, some target =>
    (target.reads.filter fun location => !source.writes.contains location).map
      (.unwritten consumer.stage producer.stage)
  | _, _ => []

/-- Everything wrong with units in pipeline order: entry points that are missing, then inputs that
nothing writes. -/
def interfaceFaults (units : List StageUnit) : List InterfaceFault :=
  ((units.filter fun u => u.entryPoint?.isNone).map fun u => .missingEntry u.stage) ++
    (units.zip units.tail).flatMap fun pair => unmatched pair.1 pair.2

end EffectLink
