import EffectLink.Module.Interface
import EffectLink.Module.Uniform

namespace EffectLink

/-- Keeps the first item of each name. -/
def firstOfEach {α : Type} (name : α → String) : List String → List α → List α
  | _, [] => []
  | earlier, item :: rest =>
    if earlier.contains (name item) then firstOfEach name earlier rest
    else item :: firstOfEach name (name item :: earlier) rest

structure ProgramObject where
  units : List StageUnit
  faults : List InterfaceFault
  live : LiveSet

namespace ProgramObject

def empty : ProgramObject := ⟨[], [], ⟨[], []⟩⟩

def add (p : ProgramObject) (unit : StageUnit) : ProgramObject :=
  { p with units := p.units ++ [unit] }

def link (p : ProgramObject) : ProgramObject :=
  let units := p.units.mergeSort fun a b => a.stage.index ≤ b.stage.index
  { p with units, faults := interfaceFaults units }

def isLinked (p : ProgramObject) : Bool := p.faults.isEmpty

def log (p : ProgramObject) : String := String.join (p.faults.map InterfaceFault.line)

/-- Lists what the stages use; a name that an earlier stage has listed is not listed again. -/
def reflect (p : ProgramObject) : ProgramObject :=
  let parts := p.units.map fun u => u.content.reflect
  { p with
    live :=
      { blocks := firstOfEach id [] (parts.flatMap (·.blocks))
        uniforms := firstOfEach (·.name) [] (parts.flatMap (·.uniforms)) } }

inductive BinaryFault where
  | notLinked (stage : Stage)
  | noEntryPoint (stage : Stage)
  | failed (log : String)
  deriving DecidableEq

def BinaryFault.message : BinaryFault → String
  | .notLinked stage => s!"{stage.label} stage was not linked"
  | .noEntryPoint stage => s!"{stage.label} stage has no entry point"
  | .failed log => log

def binary (p : ProgramObject) (stage : Stage) : Except BinaryFault (List UInt32) :=
  match p.units.find? (·.stage == stage) with
  | none => .error (.notLinked stage)
  | some unit =>
    if unit.entryPoint?.isSome then unit.content.binary.mapError .failed
    else .error (.noEntryPoint stage)

end ProgramObject

end EffectLink
