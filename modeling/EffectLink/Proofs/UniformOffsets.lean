import EffectLink.Module.Backend
import EffectLink.Proofs.BackendLinking

namespace EffectLink

namespace Shape

/-- Scalars, vectors and matrices, and arrays of them. -/
def isData : Shape → Bool
  | .scalar _ | .vector _ _ | .matrix _ _ _ => true
  | .array base | .bindingArray base _ => base.isData
  | .struct _ | .image _ _ | .sampler _ | .other => false

/-- Data whose type ids stand among those of the resources. -/
def isMistaken : Shape → Bool
  | .vector size element => size != 1 && (element == ⟨.uint, 4⟩ || element == ⟨.float, 8⟩)
  | .matrix columns rows _ => columns != rows
  | .array base | .bindingArray base _ => base.isMistaken
  | .scalar _ | .struct _ | .image _ _ | .sampler _ | .other => false

end Shape

theorem Scalar.vectorId_lt_iff {s : Scalar} {size : Nat} {id : UInt32}
    (h : s.vectorId size = some id) :
    id < resourceTypes ↔ (Shape.vector size s).isMistaken = false := by
  unfold vectorId at h
  split at h
  case h_5 => contradiction
  all_goals
    next ids hids =>
    unfold typeIds at hids
    split at hids
    case h_6 => contradiction
    all_goals
      cases hids
      cases h
      simp [Shape.isMistaken, resourceTypes]

theorem matrixId_lt_iff {columns rows : Nat} {id : UInt32} (h : matrixId columns rows = some id) :
    id < resourceTypes ↔ columns = rows := by
  unfold matrixId at h
  split at h
  case h_10 => contradiction
  all_goals
    cases h
    decide

theorem resourceTypes_le_imageId (dimension : ImageDimension) (cls : ImageClass) :
    ¬imageId dimension cls < resourceTypes := by
  cases dimension <;> cases cls <;> decide

/-- The type ids below those of resources are the ids of data, with the exceptions. -/
theorem Shape.typeId_lt_iff {s : Shape} {id : UInt32} (h : s.typeId = some id) :
    id < resourceTypes ↔ s.isData = true ∧ s.isMistaken = false := by
  fun_induction Shape.typeId s with
  | case1 element =>
    -- a scalar has the id of a vector of one
    have hscalar := Scalar.vectorId_lt_iff h
    simpa [isData, isMistaken] using hscalar
  | case2 size element =>
    have hvector := Scalar.vectorId_lt_iff h
    simpa [isData] using hvector
  | case3 columns rows =>
    have hmatrix := matrixId_lt_iff h
    simpa [isData, isMistaken] using hmatrix
  | case4 => contradiction
  | case5 base ih => exact ih h
  | case6 base _ ih => exact ih h
  | case7 dimension cls =>
    cases h
    simp [isData, resourceTypes_le_imageId]
  | case8 comparison =>
    cases h
    cases comparison <;> simp [isData, resourceTypes]
  | case9 => contradiction
  | case10 => contradiction

/-- A leaf of a block: the name it is listed under, its offset in the block, and its shape. -/
structure BlockLeaf where
  name : String
  offset : UInt32
  shape : Shape
  deriving DecidableEq

/-- The uniform that is listed for a leaf, if its shape has a type id. -/
def BlockLeaf.uniform? (leaf : BlockLeaf) : Option LiveUniform :=
  leaf.shape.typeId.map fun id => ⟨leaf.name, id, some leaf.offset⟩

mutual
/-- The leaves below `path`, in the order of the members. An array of aggregates has those of its first
element. -/
def Shape.blockLeaves (path : String) (offset : UInt32) : Shape → List BlockLeaf
  | .struct members => members.blockLeaves path offset
  | .array (.struct members) => members.blockLeaves (path ++ "[0]") offset
  | shape => [⟨shape.listedName path, offset, shape⟩]
def Members.blockLeaves (path : String) (offset : UInt32) : Members → List BlockLeaf
  | .nil => []
  | .cons name inner _ shape rest =>
    shape.blockLeaves (memberPath path name) (offset + inner) ++ rest.blockLeaves path offset
end

/-- A single leaf stands for itself. -/
theorem BlockLeaf.filterMap_uniform? (leaf : BlockLeaf) :
    [leaf].filterMap uniform? = leaf.uniform?.toList := by
  rw [List.filterMap_cons]
  cases leaf.uniform? <;> rfl

mutual
/-- The listed uniforms are those of the leaves. -/
theorem Shape.leaves_eq (path : String) (offset : UInt32) (s : Shape) :
    s.leaves path offset = (s.blockLeaves path offset).filterMap BlockLeaf.uniform? := by
  have hsingle := BlockLeaf.filterMap_uniform? ⟨s.listedName path, offset, s⟩
  cases s with
  | struct members => exact members.leaves_eq path offset
  | array base =>
    cases base with
    | struct members => exact members.leaves_eq (path ++ "[0]") offset
    | _ => exact hsingle.symm
  | _ => exact hsingle.symm
theorem Members.leaves_eq (path : String) (offset : UInt32) (m : Members) :
    m.leaves path offset = (m.blockLeaves path offset).filterMap BlockLeaf.uniform? := by
  cases m with
  | nil => rfl
  | cons name inner _ shape rest =>
    rw [Members.leaves, Members.blockLeaves, List.filterMap_append, shape.leaves_eq, rest.leaves_eq]
end

/-- The leaves of a live block. -/
def Global.blockLeaves (g : Global) : List BlockLeaf :=
  if g.live && g.space == .uniform then
    g.shape.blockLeaves (if g.name.isSome then g.blockName else "") 0
  else []

/-- The leaves of the blocks that a unit uses. -/
def StageUnit.blockLeaves (u : StageUnit) : List BlockLeaf :=
  u.content.globals.flatMap Global.blockLeaves

/-- Only a leaf of a block is listed with an offset. -/
theorem Global.exists_leaf {g : Global} {u : LiveUniform} (hu : u ∈ g.reflect.uniforms)
    (hoffset : u.offset.isSome = true) : ∃ leaf ∈ g.blockLeaves, leaf.uniform? = some u := by
  unfold reflect at hu
  unfold blockLeaves
  cases hlive : g.live with
  | false =>
    rw [hlive] at hu
    contradiction
  | true =>
    rw [hlive, if_neg (by decide)] at hu
    cases hspace : g.space with
    | uniform =>
      rw [hspace] at hu
      dsimp only at hu
      rw [Shape.leaves_eq] at hu
      exact List.mem_filterMap.mp hu
    | handle =>
      rw [hspace] at hu
      dsimp only at hu
      split at hu
      -- a resource is listed without an offset
      · rw [List.mem_singleton.mp hu] at hoffset
        contradiction
      · contradiction
    | other =>
      rw [hspace] at hu
      contradiction

theorem StageUnit.exists_leaf {unit : StageUnit} {u : LiveUniform}
    (hu : u ∈ unit.content.reflect.uniforms) (hoffset : u.offset.isSome = true) :
    ∃ leaf ∈ unit.blockLeaves, leaf.uniform? = some u := by
  obtain ⟨part, hpart, hu⟩ := List.mem_flatMap.mp hu
  obtain ⟨g, hg, rfl⟩ := List.mem_map.mp hpart
  obtain ⟨leaf, hleaf, huniform⟩ := g.exists_leaf hu hoffset
  exact ⟨leaf, List.mem_flatMap.mpr ⟨g, hg, hleaf⟩, huniform⟩

theorem sublist_firstOfEach {α : Type} {name : α → String} (earlier : List String) (items : List α) :
    (firstOfEach name earlier items).Sublist items := by
  fun_induction firstOfEach name earlier items with
  | case1 => exact List.Sublist.refl _
  | case2 earlier first rest hseen ih => exact ih.cons first
  | case3 earlier first rest hnew ih => exact ih.cons_cons first

/-- The program object of some units that were added one after the other. -/
def ProgramObject.assemble (units : List StageUnit) : ProgramObject := units.foldl add empty

theorem ProgramObject.assemble_eq (units : List StageUnit) :
    assemble units = ⟨units, [], ⟨[], []⟩⟩ := by
  have hadd (o : ProgramObject) : units.foldl add o = { o with units := o.units ++ units } := by
    induction units generalizing o with
    | nil => simp
    | cons unit units ih =>
      rw [List.foldl_cons, ih]
      simp [add]
  exact hadd empty

theorem Frontend.object_eq (units : List (Stage × StageUnit)) :
    object units = (ProgramObject.assemble (units.map Prod.snd)).link := by
  unfold object ProgramObject.assemble
  rw [List.foldl_map]

theorem Frontend.mem_units_object {units : List (Stage × StageUnit)} {unit : StageUnit} :
    unit ∈ (object units).units ↔ unit ∈ units.map Prod.snd := by
  rw [object_eq, ProgramObject.assemble_eq]
  exact List.mem_mergeSort

/-- Units in pipeline order stay as they are. -/
theorem Frontend.object_of_pairwise {units : List (Stage × StageUnit)}
    (h : (units.map Prod.snd).Pairwise fun a b => a.stage.index ≤ b.stage.index) :
    object units = ⟨units.map Prod.snd, interfaceFaults (units.map Prod.snd), ⟨[], []⟩⟩ := by
  have hsorted : (units.map Prod.snd).mergeSort (fun a b => a.stage.index ≤ b.stage.index) =
      units.map Prod.snd := by
    apply List.mergeSort_of_pairwise
    simpa only [decide_eq_true_eq] using h
  rw [object_eq, ProgramObject.assemble_eq]
  unfold ProgramObject.link
  dsimp only
  rw [hsorted]

namespace Program

/-- The uniforms that the program object of a program lists. -/
def listedUniforms (p : Program) (units : List (Option StageUnit)) : List LiveUniform :=
  (Frontend.object (p.foundUnits units Stage.all)).reflect.live.uniforms

/-- The leaves of the blocks that the stages of a program use. -/
def blockLeaves (p : Program) (units : List (Option StageUnit)) : List BlockLeaf :=
  (p.foundUnits units Stage.all).flatMap fun found => found.2.blockLeaves

theorem exists_leaf {p : Program} {units : List (Option StageUnit)} {u : LiveUniform}
    (hu : u ∈ p.listedUniforms units) (hoffset : u.offset.isSome = true) :
    ∃ leaf ∈ p.blockLeaves units, leaf.uniform? = some u := by
  have hu := (sublist_firstOfEach _ _).mem hu
  obtain ⟨part, hpart, hu⟩ := List.mem_flatMap.mp hu
  obtain ⟨unit, hunit, rfl⟩ := List.mem_map.mp hpart
  obtain ⟨found, hfound, rfl⟩ := List.mem_map.mp (Frontend.mem_units_object.mp hunit)
  obtain ⟨leaf, hleaf, huniform⟩ := found.2.exists_leaf hu hoffset
  exact ⟨leaf, List.mem_flatMap.mpr ⟨found, hfound, hleaf⟩, huniform⟩

end Program

/-- The names with an offset after a live set is added. -/
theorem Reflection.isSome_offsets_addLive (r : Reflection) (live : LiveSet) (key : String) :
    ((r.addLive live).offsets.get? key).isSome = true ↔
      (r.offsets.get? key).isSome = true ∨
      ∃ u ∈ live.uniforms, u.type < resourceTypes ∧ u.offset.isSome = true ∧
        stripIndex u.name = key := by
  unfold addLive
  rw [foldl_addUniform, KeyMap.isSome_get?_foldl_insert]
  refine or_congr_right ⟨?_, ?_⟩
  · rintro ⟨b, hb, rfl⟩
    obtain ⟨u, hu, hdata⟩ := List.mem_filterMap.mp hb
    unfold LiveUniform.dataOffset? at hdata
    split at hdata
    · next htype =>
      obtain ⟨offset, hoffset, rfl⟩ := Option.map_eq_some_iff.mp hdata
      exact ⟨u, hu, htype, Option.isSome_of_eq_some hoffset, rfl⟩
    · contradiction
  · rintro ⟨u, hu, htype, hoffset, rfl⟩
    obtain ⟨offset, hoffset⟩ := Option.isSome_iff_exists.mp hoffset
    refine ⟨(stripIndex u.name, offset), List.mem_filterMap.mpr ⟨u, hu, ?_⟩, rfl⟩
    rw [LiveUniform.dataOffset?, if_pos htype, hoffset]
    rfl

/-- A listed leaf stands below the resources if it is data, with the exceptions. -/
theorem BlockLeaf.type_lt_iff {leaf : BlockLeaf} {u : LiveUniform} (h : leaf.uniform? = some u) :
    u.type < resourceTypes ↔ leaf.shape.isData = true ∧ leaf.shape.isMistaken = false := by
  obtain ⟨id, hid, rfl⟩ := Option.map_eq_some_iff.mp h
  exact Shape.typeId_lt_iff hid

namespace Program

/-- Every uniform with an offset is a leaf of a live block. Linking records the offsets of the data among
them, except for vectors of unsigned integers, vectors of doubles and matrices that are not square, and
it records no others. -/
theorem recorded_offsets_iff (frontend : Frontend) (p : Program) (units : List (Option StageUnit))
    (header : Header) (hneeds : (Strategy.ofHeader header).needsUnits = true)
    (hok : (p.linkWith frontend.backend units header).ok = true) :
    (∀ u ∈ p.listedUniforms units, u.offset.isSome = true →
      ∃ leaf ∈ p.blockLeaves units, leaf.uniform? = some u) ∧
    ∀ key,
      ((p.linkWith frontend.backend units header).program.reflection.offsets.get? key).isSome = true ↔
        (p.reflection.offsets.get? key).isSome = true ∨
        ∃ leaf ∈ p.blockLeaves units, leaf.shape.isData = true ∧ leaf.shape.isMistaken = false ∧
          ∃ u ∈ p.listedUniforms units, leaf.uniform? = some u ∧ stripIndex u.name = key := by
  refine ⟨fun u hu hoffset => exists_leaf hu hoffset, fun key => ?_⟩
  obtain ⟨live, hreflect, hreflection⟩ := linkWith_reflection hneeds hok
  have hlive : live.uniforms = p.listedUniforms units :=
    congrArg LiveSet.uniforms (Except.ok.inj hreflect).symm
  rw [hreflection, Reflection.isSome_offsets_addLive, hlive]
  refine or_congr_right ⟨?_, ?_⟩
  · rintro ⟨u, hu, htype, hoffset, hkey⟩
    obtain ⟨leaf, hleaf, huniform⟩ := exists_leaf hu hoffset
    obtain ⟨hdata, hplain⟩ := (BlockLeaf.type_lt_iff huniform).mp htype
    exact ⟨leaf, hleaf, hdata, hplain, u, hu, huniform, hkey⟩
  -- the leaf is known by its uniform, which is listed once even if several stages use the block
  · rintro ⟨leaf, -, hdata, hplain, u, hu, huniform, hkey⟩
    have htype := (BlockLeaf.type_lt_iff huniform).mpr ⟨hdata, hplain⟩
    obtain ⟨id, -, rfl⟩ := Option.map_eq_some_iff.mp huniform
    exact ⟨_, hu, htype, rfl, hkey⟩

def horizon : Location := ⟨"sky.fx", 30⟩

/-- A block with a double, vectors and a matrix of doubles, and a float. -/
def skyBlock : Shape :=
  .struct <| .cons "d" 0 none (.scalar ⟨.float, 8⟩) <|
    .cons "d2" 16 none (.vector 2 ⟨.float, 8⟩) <|
    .cons "d4" 32 none (.vector 4 ⟨.float, 8⟩) <|
    .cons "dm" 64 none (.matrix 4 4 ⟨.float, 8⟩) <|
    .cons "f" 192 none (.scalar ⟨.float, 4⟩) .nil

/-- The vertex stage uses the block and writes a position, and the pixel stage writes a colour. -/
def skyModule : Stage → Module
  | .vertex =>
    { globals := [⟨none, .uniform, some "D", skyBlock, true⟩,
        ⟨some "gl_Position", .other, none, .vector 4 ⟨.float, 4⟩, true⟩]
      entryPoints := [⟨.vertex, [],
        some (.struct (.cons "gl_Position" 0 (some .builtin) (.vector 4 ⟨.float, 4⟩) .nil), none)⟩]
      binary := .ok [] }
  | stage =>
    { globals := [⟨some "color", .other, none, .vector 4 ⟨.float, 4⟩, true⟩]
      entryPoints := [⟨stage, [],
        some (.struct (.cons "color" 0 (some (.location 0)) (.vector 4 ⟨.float, 4⟩) .nil), none)⟩]
      binary := .ok [] }

def skyFrontend : Frontend := fun stage _ => .ok (skyModule stage)

def skyUnits : List (Option StageUnit) :=
  [some ⟨.vertex, skyModule .vertex⟩, some ⟨.pixel, skyModule .pixel⟩]

def sky : Program :=
  let slot (function : String) (shader : Nat) : StageSlot :=
    { StageSlot.vacant with
      populated := true, function, shaderName := function, location := horizon, shader := some shader }
  ((Program.new "Sky" horizon).setSlot .vertex (slot "VSSky" 0)).setSlot .pixel (slot "PSSky" 1)

def glsl : Header := ⟨.glsl, 4, 5, .none⟩

theorem object_sky : Frontend.object (sky.foundUnits skyUnits Stage.all) =
    ⟨[⟨.vertex, skyModule .vertex⟩, ⟨.pixel, skyModule .pixel⟩], [], ⟨[], []⟩⟩ := by
  rw [Frontend.object_of_pairwise (by decide)]
  rfl

theorem listedUniforms_sky : sky.listedUniforms skyUnits =
    [⟨"d", 0x140A, some 0⟩, ⟨"d2", 0x8FFC, some 16⟩, ⟨"d4", 0x8FFE, some 32⟩,
      ⟨"f", 0x1406, some 192⟩] := by
  unfold listedUniforms
  rw [object_sky]
  decide

theorem linkWith_sky : sky.linkWith skyFrontend.backend skyUnits glsl =
    ⟨{ sky with reflection :=
        ⟨["D"], ["d", "d2", "d4", "f"], .ofList [("d", 0), ("f", 192)]⟩ }, [], true,
      [.create, .add .vertex, .add .pixel, .link, .reflect]⟩ := by
  have hunits : sky.stageUnits skyUnits Stage.all = .ok (sky.foundUnits skyUnits Stage.all) := rfl
  have hlink : skyFrontend.backend.link sky.name (sky.foundUnits skyUnits Stage.all) = .ok () := by
    unfold Frontend.backend
    dsimp only
    rw [object_sky]
    rfl
  have hreflect : skyFrontend.backend.reflect sky.name (sky.foundUnits skyUnits Stage.all) =
      .ok ⟨["D"], sky.listedUniforms skyUnits⟩ := by
    unfold Frontend.backend listedUniforms
    dsimp only
    rw [object_sky]
    rfl
  change sky.linkAndReflect skyFrontend.backend skyUnits false = _
  unfold linkAndReflect
  rw [hunits]
  dsimp only
  rw [hlink]
  dsimp only
  rw [hreflect, listedUniforms_sky]
  rfl

/-- Of the four uniforms that are listed, the two scalars have an offset on record. -/
theorem recorded_offsets_iff_sky :
    (Strategy.ofHeader glsl).needsUnits = true ∧
    (sky.linkWith skyFrontend.backend skyUnits glsl).ok = true ∧
    (sky.listedUniforms skyUnits).map (·.name) = ["d", "d2", "d4", "f"] ∧
    ∀ key,
      ((sky.linkWith skyFrontend.backend skyUnits glsl).program.reflection.offsets.get? key).isSome =
        true ↔ key = "d" ∨ key = "f" := by
  have hneeds : (Strategy.ofHeader glsl).needsUnits = true := by decide
  have hok : (sky.linkWith skyFrontend.backend skyUnits glsl).ok = true := by rw [linkWith_sky]
  have hleaves : sky.blockLeaves skyUnits = [⟨"d", 0, .scalar ⟨.float, 8⟩⟩,
      ⟨"d2", 16, .vector 2 ⟨.float, 8⟩⟩, ⟨"d4", 32, .vector 4 ⟨.float, 8⟩⟩,
      ⟨"dm", 64, .matrix 4 4 ⟨.float, 8⟩⟩, ⟨"f", 192, .scalar ⟨.float, 4⟩⟩] := by decide
  refine ⟨hneeds, hok, by rw [listedUniforms_sky]; rfl, fun key => ?_⟩
  rw [(recorded_offsets_iff skyFrontend sky skyUnits glsl hneeds hok).2 key]
  have hbefore : sky.reflection.offsets.get? key = none := rfl
  rw [hbefore, hleaves, listedUniforms_sky]
  constructor
  · rintro (hbefore | ⟨leaf, hleaf, hdata, hplain, u, -, huniform, rfl⟩)
    · contradiction
    · simp only [List.mem_cons, List.not_mem_nil, or_false] at hleaf
      rcases hleaf with rfl | rfl | rfl | rfl | rfl
      · cases huniform
        exact Or.inl (by decide)
      · contradiction
      · contradiction
      · contradiction
      · cases huniform
        exact Or.inr (by decide)
  · rintro (rfl | rfl)
    · exact Or.inr ⟨_, List.mem_cons_self, rfl, rfl, _, List.mem_cons_self, rfl, by decide⟩
    · exact Or.inr ⟨⟨"f", 192, .scalar ⟨.float, 4⟩⟩, by decide, rfl, rfl, ⟨"f", 0x1406, some 192⟩,
        by decide, rfl, by decide⟩

/-- A vector of doubles is data in a block, and its offset is lost. -/
theorem offset_of_data_lost :
    ¬∀ (frontend : Frontend) (p : Program) (units : List (Option StageUnit)) (header : Header),
      (Strategy.ofHeader header).needsUnits = true →
      (p.linkWith frontend.backend units header).ok = true →
      ∀ u ∈ p.listedUniforms units, ∀ leaf ∈ p.blockLeaves units, leaf.uniform? = some u →
        leaf.shape.isData = true →
        ((p.linkWith frontend.backend units header).program.reflection.offsets.get?
          (stripIndex u.name)).isSome = true := by
  intro hall
  have hlisted : (⟨"d2", 0x8FFC, some 16⟩ : LiveUniform) ∈ sky.listedUniforms skyUnits := by
    rw [listedUniforms_sky]
    decide
  have hrecorded := hall skyFrontend sky skyUnits glsl (by decide) (by rw [linkWith_sky]) _ hlisted
    ⟨"d2", 16, .vector 2 ⟨.float, 8⟩⟩ (by decide) rfl rfl
  rw [linkWith_sky] at hrecorded
  exact absurd hrecorded (by decide)

end Program

end EffectLink
