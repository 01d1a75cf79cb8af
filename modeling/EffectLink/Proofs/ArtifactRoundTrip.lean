import EffectLink.Proofs.WireReading
import Mathlib.Tactic.MkIffOfInductiveProp

namespace EffectLink

namespace Wire

/-- A text whose length in bytes the format can hold. -/
def TextFits (s : String) : Prop := s.utf8ByteSize < 2 ^ 32

/-- A list whose length the format can hold, of items that fit as well. -/
def ListFits {α : Type} (itemFits : α → Prop) (values : List α) : Prop :=
  values.length < 2 ^ 32 ∧ ∀ a ∈ values, itemFits a

end Wire

open Wire

/-- Only texts have a length of their own. -/
def AnnotationValue.Fits : AnnotationValue → Prop
  | .text v => TextFits v
  | _ => True

@[mk_iff]
structure AnnotationEntry.Fits (e : AnnotationEntry) : Prop where
  key : TextFits e.key
  value : e.value.Fits

@[mk_iff]
structure StageRecord.Fits (r : StageRecord) : Prop where
  name : TextFits r.name
  bindings : ListFits (fun b => TextFits b.1 ∧ TextFits b.2) r.bindings
  /-- A binary is preceded by its length in bytes. -/
  binary : r.binary.length * 4 < 2 ^ 32

/-- Every text, list and binary of the record has a length that can be written in 32 bits. -/
@[mk_iff]
structure Record.Fits (r : Record) : Prop where
  name : TextFits r.name
  annotation : ∀ entries ∈ r.annotation, ListFits AnnotationEntry.Fits entries
  vertexInputs : r.vertexInputs.length < 2 ^ 32
  pixelOutputs : r.pixelOutputs.length < 2 ^ 32
  stages : ∀ s, (r.stages.get s).Fits
  blocks : ListFits TextFits r.blocks
  uniforms : ListFits TextFits r.uniforms
  offsets : ListFits (fun o => TextFits o.1) r.offsets
  renderState : TextFits r.renderState

instance : DecidablePred TextFits := fun _ => Nat.decLt _ _

instance {α : Type} (itemFits : α → Prop) [DecidablePred itemFits] :
    DecidablePred (ListFits itemFits) := fun _ => instDecidableAnd

instance : DecidablePred AnnotationValue.Fits
  | .int _ | .uint _ | .float _ | .double _ | .bool _ => .isTrue trivial
  | .text v => inferInstanceAs (Decidable (TextFits v))

instance : DecidablePred AnnotationEntry.Fits := fun e => decidable_of_iff' _ e.fits_iff

instance : DecidablePred StageRecord.Fits := fun r => decidable_of_iff' _ r.fits_iff

instance : DecidablePred Record.Fits := fun r => decidable_of_iff' _ r.fits_iff

namespace Wire

theorem reads_list {α : Type} {item : Read α} {write : α → Bytes} {itemFits : α → Prop}
    (h : ∀ a, itemFits a → Reads item (write a) a) {values : List α}
    (hv : ListFits itemFits values) : Reads (Read.counted item) (list write values) values :=
  reads_counted hv.1 fun a ha => h a (hv.2 a ha)

/-- The kind written before a value tells the reader which value follows. -/
theorem reads_value (offset : Nat) {v : AnnotationValue} (hv : v.Fits) :
    Reads (Read.value offset v.kindCode) (value v) v := by
  cases v with
  | int v => exact (reads_int v).map AnnotationValue.int
  | uint v => exact (reads_word v).map AnnotationValue.uint
  | float bits => exact (reads_word bits).map AnnotationValue.float
  | double bits => exact (reads_longWord bits).map AnnotationValue.double
  | bool v => exact (reads_bool v).map AnnotationValue.bool
  | text v => exact (reads_text hv).map AnnotationValue.text

theorem reads_entry {e : AnnotationEntry} (he : e.Fits) : Reads Read.entry (entry e) e := by
  apply reads_position_bind
  intro n
  rw [entry, List.append_assoc]
  refine (reads_word _).bind ((reads_text he.key).bind ?_)
  exact (reads_value n he.value).map (AnnotationEntry.mk e.key)

theorem reads_entries {a : Option (List AnnotationEntry)}
    (ha : ∀ entries ∈ a, ListFits AnnotationEntry.Fits entries) :
    Reads Read.entries (entries a) a := by
  cases a with
  | none => exact (reads_bool false).bind_last (reads_pure none)
  | some entries =>
    have hentries := reads_list (fun e => reads_entry) (ha entries rfl)
    exact (reads_bool true).bind (hentries.map some)

theorem reads_binding {b : String × String} (hb : TextFits b.1 ∧ TextFits b.2) :
    Reads Read.binding (binding b) b :=
  (reads_text hb.1).bind ((reads_text hb.2).map (Prod.mk b.1))

theorem reads_stage (s : Stage) {r : StageRecord} (hr : r.Fits) :
    Reads (Read.stage s) (stage s r) r := by
  have hbindings := reads_list (fun b => reads_binding) hr.bindings
  rw [stage, List.append_assoc, List.append_assoc]
  refine (reads_expectTag s.tag).bind ((reads_text hr.name).bind (hbindings.bind ?_))
  exact (reads_words hr.binary).map (StageRecord.mk r.name r.bindings)

theorem reads_offset {o : String × UInt32} (ho : TextFits o.1) :
    Reads Read.offset (offset o) o :=
  (reads_text ho).bind ((reads_word o.2).map (Prod.mk o.1))

/-- A record that fits is read from its encoding. -/
theorem reads_record {r : Record} (hr : r.Fits) : Reads Read.record r.encode r := by
  have hslots (values : List UInt32) : Reads (Read.items Read.word values.length)
      (values.flatMap word) values := reads_items fun v _ => reads_word v
  have hblocks := reads_list (fun s => reads_text) hr.blocks
  have huniforms := reads_list (fun s => reads_text) hr.uniforms
  have hoffsets := reads_list (fun o => reads_offset) hr.offsets
  unfold Read.record Record.encode
  simp only [List.append_assoc]
  -- the steps of the reader in the order of the fields; both slot counts come before both lists
  refine (reads_text hr.name).bind ((reads_entries hr.annotation).bind ?_)
  refine (reads_bool r.hasHull).bind ((reads_word r.patchSize).bind ?_)
  refine (reads_count hr.vertexInputs).bind ((reads_count hr.pixelOutputs).bind ?_)
  refine (hslots r.vertexInputs).bind ((hslots r.pixelOutputs).bind ?_)
  refine (reads_bool r.hasGeometry).bind ?_
  refine (reads_stage .vertex (hr.stages .vertex)).bind ?_
  refine (reads_stage .hull (hr.stages .hull)).bind ?_
  refine (reads_stage .domain (hr.stages .domain)).bind ?_
  refine (reads_stage .geometry (hr.stages .geometry)).bind ?_
  refine (reads_stage .pixel (hr.stages .pixel)).bind ?_
  refine (reads_stage .compute (hr.stages .compute)).bind ?_
  refine hblocks.bind (huniforms.bind (hoffsets.bind ?_))
  exact (reads_expectTag renderStateTag).bind ((reads_text hr.renderState).bind_last (reads_pure r))

end Wire

namespace Record

theorem decode_encode {r : Record} (hr : r.Fits) : decode r.encode = .ok r := by
  have h := reads_record hr [] 0
  rw [List.append_nil] at h
  rw [decode, Cursor.start, h]
  rfl

end Record

namespace Program

/-- The artifact of a program, read back, is the record of that program: its name and annotation, which
of the optional stages it has, the slots of the pooled vertex and pixel functions, every stage with its
bindings and binary, what is live, and the render state. -/
theorem decode_artifact (p : Program) (pool : Pool) (h : (Record.ofProgram p pool).Fits) :
    Record.decode (p.artifact pool) = .ok
      { name := p.name
        annotation := p.annotation.map (·.entries)
        hasHull := (p.slots.get .hull).populated
        patchSize := p.patchSize
        vertexInputs := (((p.slots.get .vertex).shader.bind pool.get?).map
          (·.function.inputSlots)).getD []
        pixelOutputs := (((p.slots.get .pixel).shader.bind pool.get?).map
          (·.function.outputAttachments)).getD []
        hasGeometry := (p.slots.get .geometry).populated
        stages := .ofFn fun s =>
          { name := if (p.slots.get s).populated then (p.slots.get s).shaderName else ""
            bindings := (p.slots.get s).bindings.entries
            binary := (p.slots.get s).binary }
        blocks := p.reflection.blocks
        uniforms := p.reflection.uniforms
        offsets := p.reflection.offsets.entries
        renderState := (p.renderState.map (·.name)).getD "" } := by
  rw [artifact, Record.decode_encode h, Record.ofProgram, pooledFunction_eq, pooledFunction_eq,
    Option.map_map, Option.map_map]
  rfl

/-- A vertex function with a slot of its own choice between two that go by position. -/
def terrainVertex : Function :=
  let input (name : String) (slot : Option UInt32) : Parameter :=
    ⟨name, .builtin .float4, none, ⟨"terrain.json", 2⟩, .input, slot, none⟩
  { name := "heights", location := ⟨"terrain.json", 1⟩, returnType := .builtin .void
    parameters := [input "position" none, input "uv" (some 7), input "weight" none]
    isShader := true, attributes := .none, code := "void main() {}" }

/-- Two shaded stages, metadata of every kind, and a geometry slot that no row has filled. -/
def terrain : Program :=
  { Program.new "Täler" ⟨"terrain.json", 8⟩ with
    slots := .ofFn fun
      | .vertex => { StageSlot.vacant with
          populated := true, shaderName := "heights", shader := some 0
          bindings := .ofList [("noise", "perlin"), ("fog", "thick")] }
      | .hull => { StageSlot.vacant with
          populated := true, shaderName := "patch(fog = thick)", binary := [0x07230203, 0xFFFFFFFF] }
      | .geometry => { StageSlot.vacant with shaderName := "unused", binary := [7] }
      | _ => .vacant
    annotation := some ⟨⟨"terrain.json", 8⟩,
      [⟨"lod", .int (-1)⟩, ⟨"mask", .uint 0xFFFFFFFF⟩, ⟨"bias", .float 0x7FC00000⟩,
       ⟨"far", .double 0xFFF0000000000001⟩, ⟨"cast", .bool true⟩, ⟨"", .text "→"⟩]⟩
    patchSize := 4
    reflection :=
      { blocks := ["Camera"], uniforms := ["lights[0]", "eye"]
        offsets := .ofList [("lights", 64), ("eye", 0)] } }

def terrainPool : Pool := ⟨[⟨.vertex, "heights", terrainVertex, "", ∅⟩]⟩

theorem decode_artifact_terrain :
    (Record.ofProgram terrain terrainPool).Fits ∧
    Record.decode (terrain.artifact terrainPool) = .ok
      { name := "Täler"
        annotation := some [⟨"lod", .int (-1)⟩, ⟨"mask", .uint 0xFFFFFFFF⟩,
          ⟨"bias", .float 0x7FC00000⟩, ⟨"far", .double 0xFFF0000000000001⟩, ⟨"cast", .bool true⟩,
          ⟨"", .text "→"⟩]
        hasHull := true
        patchSize := 4
        vertexInputs := [0, 7, 2]
        pixelOutputs := []
        hasGeometry := false
        stages :=
          { vertex := ⟨"heights", [("fog", "thick"), ("noise", "perlin")], []⟩
            hull := ⟨"patch(fog = thick)", [], [0x07230203, 0xFFFFFFFF]⟩
            domain := ⟨"", [], []⟩
            geometry := ⟨"", [], [7]⟩
            pixel := ⟨"", [], []⟩
            compute := ⟨"", [], []⟩ }
        blocks := ["Camera"]
        uniforms := ["lights[0]", "eye"]
        offsets := [("eye", 0), ("lights", 64)]
        renderState := "" } := by
  have h : (Record.ofProgram terrain terrainPool).Fits := by decide
  exact ⟨h, decode_artifact terrain terrainPool h⟩

end Program

end EffectLink
