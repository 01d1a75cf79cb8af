import EffectLink.Declaration
import EffectLink.Stage

namespace EffectLink

/-- What a program holds for one stage. -/
structure StageSlot where
  /-- Whether a row has assigned a function to the stage. -/
  populated : Bool
  /-- The function that the row names. -/
  function : String
  /-- The name written to the artifact: the function, with its bindings if they are static. -/
  shaderName : String
  /-- Dynamic subroutine bindings, from interface to implementation. -/
  bindings : KeyMap String
  location : Location
  /-- Position of the stage's shader in the pool. -/
  shader : Option Nat
  /-- Stage binary in words, where the backend produces one. -/
  binary : List UInt32
  deriving DecidableEq

/-- A stage that no row has assigned a function to. -/
def StageSlot.vacant : StageSlot :=
  { populated := false
    function := ""
    shaderName := ""
    bindings := ∅
    location := ⟨"", 0⟩
    shader := none
    binary := [] }

/-- A row whose key means nothing. -/
structure InvalidRow where
  key : String
  location : Location
  deriving DecidableEq

/-- The render state that a row names. -/
structure RenderStateRow where
  name : String
  location : Location
  deriving DecidableEq

/-- What the backend found to be live. -/
structure Reflection where
  blocks : List String
  /-- Uniforms as the backend names them, array suffix included. -/
  uniforms : List String
  /-- Byte offsets within a block, by name without array suffix. -/
  offsets : KeyMap UInt32
  deriving DecidableEq

def Reflection.empty : Reflection := ⟨[], [], ∅⟩

structure Program where
  name : String
  location : Location
  slots : PerStage StageSlot
  renderState : Option RenderStateRow
  compileFlags : String
  invalidRows : List InvalidRow
  annotation : Option Annotation
  /-- Control points of a patch, from the hull shader. -/
  patchSize : UInt32
  reflection : Reflection
  deriving DecidableEq

namespace Program

/-- A program without rows. -/
def new (name : String) (location : Location) : Program :=
  { name, location
    slots := .ofFn fun _ => .vacant
    renderState := none
    compileFlags := ""
    invalidRows := []
    annotation := none
    patchSize := 0
    reflection := .empty }

def isPopulated (p : Program) (stage : Stage) : Bool := (p.slots.get stage).populated

/-- The slot of a stage, if the stage is populated. -/
def slot (p : Program) (stage : Stage) : Option StageSlot :=
  if p.isPopulated stage then some (p.slots.get stage) else none

/-- The slots of the populated stages. -/
def stages (p : Program) : PerStage (Option StageSlot) := .ofFn p.slot

/-- The populated stages in pipeline order. -/
def populated (p : Program) : List Stage := Stage.all.filter p.isPopulated

theorem slot_eq_some {p : Program} {stage : Stage} {found : StageSlot} :
    p.slot stage = some found ↔ p.slots.get stage = found ∧ found.populated = true := by
  unfold slot isPopulated
  constructor
  · intro h
    split at h
    · next hp =>
      cases h
      exact ⟨rfl, hp⟩
    · contradiction
  · rintro ⟨rfl, hp⟩
    rw [if_pos hp]

theorem slot_eq_none {p : Program} {stage : Stage} :
    p.slot stage = none ↔ (p.slots.get stage).populated = false := by
  unfold slot isPopulated
  cases (p.slots.get stage).populated <;> simp

def setSlot (p : Program) (stage : Stage) (slot : StageSlot) : Program :=
  { p with slots := p.slots.set stage slot }

theorem slots_setSlot_self (p : Program) (stage : Stage) (slot : StageSlot) :
    (p.setSlot stage slot).slots.get stage = slot :=
  PerStage.get_set_self _ _ _

theorem slots_setSlot_of_ne (p : Program) {stage other : Stage} (h : other ≠ stage)
    (slot : StageSlot) : (p.setSlot stage slot).slots.get other = p.slots.get other :=
  PerStage.get_set_of_ne _ h _

/-- What a program holds for a stage depends on the slot alone. -/
theorem slot_congr {p q : Program} {stage : Stage} (h : p.slots.get stage = q.slots.get stage) :
    p.slot stage = q.slot stage := by
  unfold slot isPopulated
  rw [h]

/-- Where a missing or wrong render state is reported. -/
def renderStateLocation (p : Program) : Location :=
  match p.renderState with
  | some row => row.location
  | none => p.location

/-- A stage row fills the parts of a slot that come from rows. What later phases have recorded for
the stage stays. -/
def stageRow (old : StageSlot) (row : ProgramRow) : StageSlot :=
  { old with
    populated := true
    function := row.value
    shaderName := row.value
    bindings := row.bindings
    location := row.location }

/-- Applies one row. A later row replaces an earlier one with the same key; rows with an unknown key
are kept for validation to report. -/
def consume (p : Program) (row : ProgramRow) : Program :=
  match Stage.ofRowKey? row.key with
  | some stage => p.setSlot stage (stageRow (p.slots.get stage) row)
  | none =>
    if row.key = "RenderState" then { p with renderState := some ⟨row.value, row.location⟩ }
    else if row.key = "CompileFlags" then { p with compileFlags := row.value }
    else { p with invalidRows := p.invalidRows ++ [⟨row.key, row.location⟩] }

/-- Collects a declaration: its rows in order, and its annotation. -/
def ofDecl (decl : ProgramDecl) : Program :=
  { decl.rows.foldl consume (new decl.name decl.location) with annotation := decl.annotation }

end Program

end EffectLink
