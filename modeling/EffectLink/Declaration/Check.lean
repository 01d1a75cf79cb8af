import EffectLink.Diagnostic.Basic
import EffectLink.Layout

namespace EffectLink

/-- The result of registering a list of declarations. -/
structure Registered (α : Type) where
  table : SymbolTable
  accepted : List α
  faults : List Diagnostic

def SymbolTable.registerAll {α : Type} (symbol : α → Symbol) :
    SymbolTable → List α → Registered α
  | t, [] => ⟨t, [], []⟩
  | t, declared :: rest =>
    match t.register (symbol declared) with
    | .ok extended =>
      let more := registerAll symbol extended rest
      { more with accepted := declared :: more.accepted }
    | .error taken =>
      let s := symbol declared
      let more := registerAll symbol t rest
      { more with
        faults := .redefinition s.kind.text s.name s.location taken.previous :: more.faults }

namespace SymbolTable

/-- A user type has to name a registered structure. -/
def typeFaults (t : SymbolTable) (owner : String) (location : Location) :
    DataType → List Diagnostic
  | .builtin _ => []
  | .user name =>
    match t.resolveAggregate name.text with
    | .ok _ => []
    | .error (.mismatch _ expected found) =>
      [(Diagnostic.kindMismatch name.text expected.text found.text location).inContext s!"'{owner}'"]
    | .error (.undefined _) =>
      [(Diagnostic.unresolved "type" name.text location).inContext s!"'{owner}'"]

def recursionFaults (t : SymbolTable) (s : Structure) : List Diagnostic :=
  if t.isRecursive s then
    [.error .structureRecursion s!"structure '{s.name}' includes itself as a member" s.location]
  else []

/-- Self reference and member types. A member of the structure's own type is reported once, as a self
reference. -/
def structureFaults (t : SymbolTable) (s : Structure) : List Diagnostic :=
  t.recursionFaults s ++ s.members.flatMap fun member =>
    if member.type.userName? = some s.name then []
    else t.typeFaults s.name member.location member.type

/-- Parameters that share a slot with an earlier one; `earlier` has the latest one first. -/
def slotFaults (function list : String) :
    List (Parameter × UInt32) → List (Parameter × UInt32) → List Diagnostic
  | _, [] => []
  | earlier, (p, slot) :: rest =>
    (match earlier.find? (·.2 == slot) with
      | some (first, _) =>
        [(Diagnostic.error .duplicateSlot
          s!"{list} parameters '{first.name}' and '{p.name}' share slot {slot}"
          p.location).inContext s!"function '{function}'"]
      | none => []) ++
    slotFaults function list ((p, slot) :: earlier) rest

/-- Types of the result and the parameters, then the slots. -/
def functionFaults (t : SymbolTable) (f : Function) : List Diagnostic :=
  t.typeFaults f.name f.location f.returnType ++
  (f.parameters.flatMap fun p => t.typeFaults f.name p.location p.type) ++
  slotFaults f.name "input" [] (f.inputs.zip f.inputSlots) ++
  slotFaults f.name "output" [] (f.outputs.zip f.outputSlots)

end SymbolTable

/-- The table with the effect's declarations added, and everything wrong with them. -/
structure Checked where
  table : SymbolTable
  faults : List Diagnostic

def Effect.check (effect : Effect) (t : SymbolTable) : Checked :=
  let structures := t.registerAll .aggregate effect.structures
  let globals := structures.table.registerAll .global effect.globals
  let subroutines := globals.table.registerAll .subroutine effect.subroutines
  let renderStates := subroutines.table.registerAll .renderState effect.renderStates
  let functions := renderStates.table.registerAll .function effect.functions
  -- Types are looked up in the final table, so a type may be declared after its use.
  let final := functions.table
  { table := final
    faults :=
      structures.faults ++ globals.faults ++ subroutines.faults ++ renderStates.faults ++
      functions.faults ++
      structures.accepted.flatMap final.structureFaults ++
      (globals.accepted.flatMap fun v => final.typeFaults v.name v.location v.type) ++
      functions.accepted.flatMap final.functionFaults }

end EffectLink
