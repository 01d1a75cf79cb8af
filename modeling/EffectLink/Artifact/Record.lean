import EffectLink.Artifact.Wire
import EffectLink.Program.Basic
import EffectLink.Shader.Pool

namespace EffectLink

/-- One stage of an artifact. -/
structure StageRecord where
  name : String
  bindings : List (String × String)
  binary : List UInt32
  deriving DecidableEq

structure Record where
  name : String
  annotation : Option (List AnnotationEntry)
  hasHull : Bool
  patchSize : UInt32
  vertexInputs : List UInt32
  pixelOutputs : List UInt32
  hasGeometry : Bool
  stages : PerStage StageRecord
  blocks : List String
  uniforms : List String
  offsets : List (String × UInt32)
  renderState : String
  deriving DecidableEq

/-- The tag that opens a stage's block. -/
def Stage.tag : Stage → Wire.Tag
  | .vertex => ⟨0x56, 0x45, 0x52, 0x54⟩
  | .hull => ⟨0x48, 0x55, 0x4C, 0x4C⟩
  | .domain => ⟨0x44, 0x4F, 0x4D, 0x41⟩
  | .geometry => ⟨0x47, 0x45, 0x4F, 0x4D⟩
  | .pixel => ⟨0x50, 0x49, 0x58, 0x4C⟩
  | .compute => ⟨0x43, 0x4F, 0x4D, 0x50⟩

/-- The tag before the render state. -/
def renderStateTag : Wire.Tag := ⟨0x52, 0x53, 0x54, 0x41⟩

/-- The function of a stage's pooled shader. -/
def Program.pooledFunction (p : Program) (pool : Pool) (stage : Stage) : Option Function := do
  let id ← (p.slots.get stage).shader
  let shader ← pool.get? id
  return shader.function

theorem Program.pooledFunction_eq (p : Program) (pool : Pool) (s : Stage) :
    p.pooledFunction pool s = ((p.slots.get s).shader.bind pool.get?).map (·.function) := by
  unfold pooledFunction
  cases (p.slots.get s).shader with
  | none => rfl
  | some id =>
    change (pool.get? id).bind (fun shader => some shader.function) = _
    rw [Option.bind_some, Option.map_eq_bind]
    rfl

def StageRecord.ofSlot (slot : StageSlot) : StageRecord :=
  { name := if slot.populated then slot.shaderName else ""
    bindings := slot.bindings.entries
    binary := slot.binary }

def Record.ofProgram (p : Program) (pool : Pool) : Record :=
  { name := p.name
    annotation := p.annotation.map (·.entries)
    hasHull := p.isPopulated .hull
    patchSize := p.patchSize
    vertexInputs := ((p.pooledFunction pool .vertex).map (·.inputSlots)).getD []
    pixelOutputs := ((p.pooledFunction pool .pixel).map (·.outputAttachments)).getD []
    hasGeometry := p.isPopulated .geometry
    stages := .ofFn fun stage => .ofSlot (p.slots.get stage)
    blocks := p.reflection.blocks
    uniforms := p.reflection.uniforms
    offsets := p.reflection.offsets.entries
    renderState := (p.renderState.map (·.name)).getD "" }

namespace Wire

def list {α : Type} (item : α → Bytes) (items : List α) : Bytes :=
  count items.length ++ items.flatMap item

def value : AnnotationValue → Bytes
  | .int v => int v
  | .uint v => word v
  | .float bits => word bits
  | .double bits => longWord bits
  | .bool v => bool v
  | .text v => text v

def entry (e : AnnotationEntry) : Bytes := word e.value.kindCode ++ text e.key ++ value e.value

def entries : Option (List AnnotationEntry) → Bytes
  | none => bool false
  | some values => bool true ++ list entry values

def binding (b : String × String) : Bytes := text b.1 ++ text b.2

def stage (s : Stage) (r : StageRecord) : Bytes :=
  tag s.tag ++ text r.name ++ list binding r.bindings ++ words r.binary

def offset (o : String × UInt32) : Bytes := text o.1 ++ word o.2

end Wire

def Record.encode (r : Record) : Bytes :=
  Wire.text r.name ++ Wire.entries r.annotation ++ Wire.bool r.hasHull ++
  Wire.word r.patchSize ++
  Wire.count r.vertexInputs.length ++ Wire.count r.pixelOutputs.length ++
  r.vertexInputs.flatMap Wire.word ++ r.pixelOutputs.flatMap Wire.word ++
  Wire.bool r.hasGeometry ++
  Wire.stage .vertex r.stages.vertex ++ Wire.stage .hull r.stages.hull ++
  Wire.stage .domain r.stages.domain ++ Wire.stage .geometry r.stages.geometry ++
  Wire.stage .pixel r.stages.pixel ++ Wire.stage .compute r.stages.compute ++
  Wire.list Wire.text r.blocks ++ Wire.list Wire.text r.uniforms ++
  Wire.list Wire.offset r.offsets ++
  Wire.tag renderStateTag ++ Wire.text r.renderState

/-- The artifact of a linked program. -/
def Program.artifact (p : Program) (pool : Pool) : Bytes := (Record.ofProgram p pool).encode

namespace Wire.Read

/-- The value of an entry whose kind stands at `offset`. -/
def value (offset : Nat) (kind : UInt32) : Read AnnotationValue :=
  match kind with
  | 0 => do return .int (← int)
  | 1 => do return .uint (← word)
  | 2 => do return .float (← word)
  | 3 => do return .double (← longWord)
  | 4 => do return .bool (← bool)
  | 5 => do return .text (← text)
  | _ => fail (.badKind offset kind)

def entry : Read AnnotationEntry := do
  let offset ← position
  let kind ← word
  let key ← text
  return ⟨key, ← value offset kind⟩

def entries : Read (Option (List AnnotationEntry)) := do
  if ← bool then return some (← counted entry) else return none

def binding : Read (String × String) := do return (← text, ← text)

def stage (s : Stage) : Read StageRecord := do
  expectTag s.tag
  return ⟨← text, ← counted binding, ← words⟩

def offset : Read (String × UInt32) := do return (← text, ← word)

def record : Read Record := do
  let name ← text
  let annotation ← entries
  let hasHull ← bool
  let patchSize ← word
  let inputs ← count
  let outputs ← count
  let vertexInputs ← items word inputs
  let pixelOutputs ← items word outputs
  let hasGeometry ← bool
  let stages : PerStage StageRecord :=
    ⟨← stage .vertex, ← stage .hull, ← stage .domain, ← stage .geometry, ← stage .pixel,
      ← stage .compute⟩
  let blocks ← counted text
  let uniforms ← counted text
  let offsets ← counted offset
  expectTag renderStateTag
  let renderState ← text
  return { name, annotation, hasHull, patchSize, vertexInputs, pixelOutputs, hasGeometry, stages,
           blocks, uniforms, offsets, renderState }

end Wire.Read

/-- Reads a whole artifact; bytes after the record are a fault. -/
def Record.decode (bytes : Bytes) : Except Wire.Fault Record :=
  match Wire.Read.record (.start bytes) with
  | (.error fault, _) => .error fault
  | (.ok record, c) => if c.atEnd then .ok record else .error (.trailing c.remaining)

end EffectLink
