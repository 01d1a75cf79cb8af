import EffectLink.Artifact.Record
import EffectLink.Number.Shortest
import EffectLink.Text.Printable

namespace EffectLink

def AnnotationValue.listing : AnnotationValue → String
  | .int v => s!"int {v.toInt}"
  | .uint v => s!"uint {v.toNat}"
  | .float bits => "float " ++ Number.Format.single.text bits.toNat
  | .double bits => "double " ++ Number.Format.double.text bits.toNat
  | .bool v => if v then "bool true" else "bool false"
  | .text v => "string " ++ Text.quoted v

namespace Record

def slotList (slots : List UInt32) : String :=
  "[" ++ ", ".intercalate (slots.map fun slot => s!"{slot.toNat}") ++ "]"

/-- A stage without a name is left out. -/
def stageLines (stage : Stage) (r : StageRecord) : List String :=
  if r.name.isEmpty then []
  else s!"  {stage.label}: {r.name} ({r.binary.length} words)" ::
    r.bindings.map fun b => s!"    {b.1} -> {b.2}"

def annotationLines : Option (List AnnotationEntry) → List String
  | none => []
  | some entries => "  annotation" :: entries.map fun e => s!"    {e.key} = {e.value.listing}"

def lines (r : Record) : List String :=
  [s!"program {r.name}"] ++
  annotationLines r.annotation ++
  (if r.hasHull then [s!"  patch size {r.patchSize.toNat}"] else []) ++
  ["  vertex inputs " ++ slotList r.vertexInputs, "  pixel outputs " ++ slotList r.pixelOutputs] ++
  (if r.hasGeometry then ["  geometry"] else []) ++
  (Stage.all.flatMap fun stage => stageLines stage (r.stages.get stage)) ++
  ["  uniform blocks: " ++ ", ".intercalate r.blocks,
   "  uniforms: " ++ ", ".intercalate r.uniforms] ++
  (r.offsets.map fun o => s!"    {o.1} @ {o.2.toNat}") ++
  [s!"  render state {r.renderState}"]

def listing (r : Record) : String := String.join (r.lines.map (· ++ "\n"))

end Record

end EffectLink
