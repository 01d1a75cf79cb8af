import EffectLink.Proofs.PathOrder
import EffectLink.Proofs.UniformOffsets
import Mathlib.Algebra.Group.Nat.Defs
import Mathlib.Data.List.Forall2

namespace EffectLink

namespace Shape

/-- What is inside of all array layers. -/
def peeled : Shape → Shape
  | .array base => base.peeled
  | shape => shape

/-- Number of array layers. -/
def layers : Shape → Nat
  | .array base => base.layers + 1
  | _ => 0

def isStruct : Shape → Bool
  | .struct _ => true
  | _ => false

end Shape

mutual
/-- Types of blocks: structures, arrays, and scalars, vectors and matrices that have a type id. -/
def Shape.isBlock : Shape → Bool
  | .struct members => members.areBlock
  | .array base => base.isBlock
  | .scalar element => (Shape.scalar element).typeId.isSome
  | .vector size element => (Shape.vector size element).typeId.isSome
  | .matrix columns rows element => (Shape.matrix columns rows element).typeId.isSome
  | .bindingArray _ _ | .image _ _ | .sampler _ | .other => false
def Members.areBlock : Members → Bool
  | .nil => true
  | .cons _ _ _ shape rest => shape.isBlock && rest.areBlock
end

/-- A member of a structure in a block. -/
structure Field where
  name : String
  offset : UInt32
  shape : Shape

def Members.fields : Members → List Field
  | .nil => []
  | .cons name offset _ shape rest => ⟨name, offset, shape⟩ :: rest.fields

/-- A leaf with the name it is listed under, the most array layers around a structure on the way to it, the
sum of the offsets on the way, and what is inside its own arrays. -/
structure DeclaredLeaf where
  name : String
  layers : Nat
  offset : Nat
  shape : Shape

namespace DeclaredLeaf

/-- The leaf, seen from outside of a member at an offset. -/
def shifted (offset : UInt32) (leaf : DeclaredLeaf) : DeclaredLeaf :=
  { leaf with offset := offset.toNat + leaf.offset }

/-- The leaf, seen from outside of arrays of the structure that it is in. -/
def wrapped (layers : Nat) (leaf : DeclaredLeaf) : DeclaredLeaf :=
  { leaf with layers := max layers leaf.layers }

/-- The uniform is the leaf under its name, with its type id and its offset. -/
def IsListedAs (leaf : DeclaredLeaf) (u : LiveUniform) : Prop :=
  u.name = leaf.name ∧ leaf.shape.typeId = some u.type ∧
    ∃ offset, u.offset = some offset ∧ offset.toNat = leaf.offset

end DeclaredLeaf

/-- A shape that is named `name` has a leaf at a path, which is the list of the positions of members on the
way down. -/
inductive LeafAt : String → Shape → List Nat → DeclaredLeaf → Prop where
  | data {name : String} {shape : Shape} (hdata : shape.peeled.isStruct = false) :
      LeafAt name shape [] ⟨shape.listedName name, 0, 0, shape.peeled⟩
  | member {name : String} {shape : Shape} {members : Members} {position : Nat} {field : Field}
      {path : List Nat} {leaf : DeclaredLeaf} (hstruct : shape.peeled = .struct members)
      (hfield : members.fields[position]? = some field)
      (hleaf : LeafAt (memberPath (shape.listedName name) field.name) field.shape path leaf) :
      LeafAt name shape (position :: path) ((leaf.shifted field.offset).wrapped shape.layers)

mutual
/-- The leaves of a shape below `name`, inside of `layers` further array layers. -/
def Shape.declaredUnder (name : String) (layers : Nat) : Shape → List (List Nat × DeclaredLeaf)
  | .array base => base.declaredUnder name (layers + 1)
  | .struct members =>
    (members.declaredFrom name 0).map fun entry => (entry.1, entry.2.wrapped layers)
  | shape => [([], ⟨name, 0, 0, shape⟩)]
def Members.declaredFrom (name : String) (position : Nat) : Members → List (List Nat × DeclaredLeaf)
  | .nil => []
  | .cons field offset _ shape rest =>
    ((shape.declaredUnder (shape.listedName (memberPath name field)) 0).map fun entry =>
      (position :: entry.1, entry.2.shifted offset)) ++ rest.declaredFrom name (position + 1)
end

/-- The leaves of a shape that is named `name`. -/
def Shape.declared (name : String) (s : Shape) : List (List Nat × DeclaredLeaf) :=
  s.declaredUnder (s.listedName name) 0

/-- A member of a structure below `name` has the leaf. -/
def FieldAt (name : String) (field : Field) (path : List Nat) (leaf : DeclaredLeaf) : Prop :=
  ∃ inner, LeafAt (memberPath name field.name) field.shape path inner ∧ leaf = inner.shifted field.offset

/-- A shape below `name` has the leaf, inside of `layers` further array layers. -/
def LeafUnder (name : String) (layers : Nat) (s : Shape) (path : List Nat) (leaf : DeclaredLeaf) : Prop :=
  (s.peeled.isStruct = false ∧ path = [] ∧ leaf = ⟨name, 0, 0, s.peeled⟩) ∨
  ∃ members, s.peeled = .struct members ∧
    ∃ inner, Among (FieldAt name) 0 members.fields path inner ∧ leaf = inner.wrapped (layers + s.layers)

theorem leafUnder_iff {name : String} {s : Shape} {path : List Nat} {leaf : DeclaredLeaf} :
    LeafUnder (s.listedName name) 0 s path leaf ↔ LeafAt name s path leaf := by
  unfold LeafUnder
  rw [Nat.zero_add]
  constructor
  · intro h
    rcases h with ⟨hdata, rfl, rfl⟩ | ⟨members, hstruct, inner, hamong, rfl⟩
    · exact .data hdata
    · cases path with
      | nil => exact absurd hamong id
      | cons position path =>
        obtain ⟨field, hfield, found, hfound, rfl⟩ := among_zero.mp hamong
        exact .member hstruct hfield hfound
  · intro h
    cases h with
    | data hdata =>
      left
      exact ⟨hdata, rfl, rfl⟩
    | member hstruct hfield hleaf =>
      right
      exact ⟨_, hstruct, _, among_zero.mpr ⟨_, hfield, _, hleaf, rfl⟩, rfl⟩

/-- A shape that is neither an array nor a structure is a leaf itself. -/
theorem lists_leafUnder_data {s : Shape} (hpeeled : s.peeled = s) (hdata : s.isStruct = false)
    (name : String) (layers : Nat) : Lists (LeafUnder name layers s) [([], ⟨name, 0, 0, s⟩)] := by
  apply lists_singleton
  intro path leaf
  unfold LeafUnder
  rw [hpeeled]
  constructor
  · intro h
    rcases h with ⟨-, hleaf⟩ | ⟨members, hstruct, -⟩
    · exact hleaf
    · rw [hstruct] at hdata
      contradiction
  · intro h
    left
    exact ⟨hdata, h⟩

mutual

theorem Shape.lists_declaredUnder : (s : Shape) → (name : String) → (layers : Nat) →
    Lists (LeafUnder name layers s) (s.declaredUnder name layers)
  | .array base, name, layers => by
    unfold Shape.declaredUnder
    refine (base.lists_declaredUnder name (layers + 1)).congr ?_
    intro path leaf
    -- the layer is counted from outside or from inside
    have hlayers : layers + 1 + base.layers = layers + (Shape.array base).layers := by
      simp only [Shape.layers]
      omega
    unfold LeafUnder
    rw [hlayers]
    rfl
  | .struct members, name, layers => by
    unfold Shape.declaredUnder
    refine ((members.lists_declaredFrom name 0).map (DeclaredLeaf.wrapped layers)).congr ?_
    intro path leaf
    unfold LeafUnder
    constructor
    · intro h
      right
      exact ⟨members, rfl, h⟩
    · intro h
      rcases h with ⟨hdata, -⟩ | ⟨found, hfound, h⟩
      · contradiction
      · cases hfound
        exact h
  | .scalar _, name, layers | .vector _ _, name, layers | .matrix _ _ _, name, layers
  | .bindingArray _ _, name, layers | .image _ _, name, layers | .sampler _, name, layers
  | .other, name, layers => lists_leafUnder_data rfl rfl name layers

theorem Members.lists_declaredFrom : (members : Members) → (name : String) → (position : Nat) →
    Lists (Among (FieldAt name) position members.fields) (members.declaredFrom name position)
  | .nil, name, position => lists_among_nil
  | .cons field offset _ shape rest, name, position => by
    have hshape := shape.lists_declaredUnder (shape.listedName (memberPath name field)) 0
    have hfield : Lists (FieldAt name ⟨field, offset, shape⟩) _ :=
      (hshape.congr fun _ _ => leafUnder_iff).map (DeclaredLeaf.shifted offset)
    have hlists := hfield.cons (rest.lists_declaredFrom name (position + 1))
    rw [List.map_map] at hlists
    exact hlists

end

theorem Shape.lists_declared (s : Shape) (name : String) : Lists (LeafAt name s) (s.declared name) :=
  (s.lists_declaredUnder (s.listedName name) 0).congr fun _ _ => leafUnder_iff

namespace DeclaredLeaf

/-- What is listed for a leaf of a block that starts at `base`. -/
def uniform? (base : UInt32) (leaf : DeclaredLeaf) : Option LiveUniform :=
  if leaf.layers ≤ 1 then
    leaf.shape.typeId.map fun id => ⟨leaf.name, id, some (base + UInt32.ofNat leaf.offset)⟩
  else none

theorem uniform?_shifted (base offset : UInt32) (leaf : DeclaredLeaf) :
    (leaf.shifted offset).uniform? base = leaf.uniform? (base + offset) := by
  have hsum : base + UInt32.ofNat (offset.toNat + leaf.offset) =
      base + offset + UInt32.ofNat leaf.offset := by
    rw [UInt32.ofNat_add, UInt32.ofNat_toNat, UInt32.add_assoc]
  simp only [uniform?, shifted, hsum]

theorem uniform?_wrapped {layers : Nat} (h : layers ≤ 1) (base : UInt32) (leaf : DeclaredLeaf) :
    (leaf.wrapped layers).uniform? base = leaf.uniform? base := by
  have hmax : max layers leaf.layers ≤ 1 ↔ leaf.layers ≤ 1 := by omega
  simp only [uniform?, wrapped, hmax]

theorem uniform?_wrapped_eq_none {layers : Nat} (h : 2 ≤ layers) (base : UInt32) (leaf : DeclaredLeaf) :
    (leaf.wrapped layers).uniform? base = none := by
  have hmax : ¬max layers leaf.layers ≤ 1 := by omega
  exact if_neg hmax

end DeclaredLeaf

/-- What is listed for some leaves. -/
def listed (base : UInt32) (entries : List (List Nat × DeclaredLeaf)) : List LiveUniform :=
  entries.filterMap fun entry => entry.2.uniform? base

theorem listed_cons (base : UInt32) (entry : List Nat × DeclaredLeaf)
    (rest : List (List Nat × DeclaredLeaf)) :
    listed base (entry :: rest) = (entry.2.uniform? base).toList ++ listed base rest := by
  unfold listed
  rw [List.filterMap_cons]
  cases entry.2.uniform? base <;> rfl

theorem listed_data (base : UInt32) (name : String) (s : Shape) :
    listed base [([], ⟨name, 0, 0, s⟩)] = (s.typeId.map fun id => ⟨name, id, some base⟩).toList := by
  have hzero : base + UInt32.ofNat 0 = base := UInt32.add_zero base
  have huniform : DeclaredLeaf.uniform? base ⟨name, 0, 0, s⟩ =
      s.typeId.map fun id => ⟨name, id, some base⟩ := by
    unfold DeclaredLeaf.uniform?
    rw [if_pos (Nat.zero_le 1), hzero]
  rw [listed_cons, huniform]
  exact List.append_nil _

/-- Through a single array layer nothing is lost. -/
theorem listed_wrapped {layers : Nat} (h : layers ≤ 1) (base : UInt32)
    (entries : List (List Nat × DeclaredLeaf)) :
    listed base (entries.map fun entry => (entry.1, entry.2.wrapped layers)) = listed base entries := by
  unfold listed
  rw [List.filterMap_map]
  congr 1
  funext entry
  exact DeclaredLeaf.uniform?_wrapped h base entry.2

/-- Inside of an array of arrays, data has the type id of the array and structures are not entered. -/
theorem listed_nested : (s : Shape) → (name : String) → (base : UInt32) → (layers : Nat) → 2 ≤ layers →
    listed base (s.declaredUnder name layers) = (s.typeId.map fun id => ⟨name, id, some base⟩).toList
  | .array inner, name, base, layers, h => by
    unfold Shape.declaredUnder Shape.typeId
    exact listed_nested inner name base (layers + 1) (by omega)
  | .struct members, name, base, layers, h => by
    unfold Shape.declaredUnder Shape.typeId listed
    rw [List.filterMap_map]
    apply List.filterMap_eq_nil_iff.mpr
    intro entry _
    exact DeclaredLeaf.uniform?_wrapped_eq_none h base entry.2
  | .scalar _, name, base, _, _ | .vector _ _, name, base, _, _ | .matrix _ _ _, name, base, _, _
  | .bindingArray _ _, name, base, _, _ | .image _ _, name, base, _, _ | .sampler _, name, base, _, _
  | .other, name, base, _, _ => listed_data base name _

mutual

theorem Shape.leaves_eq_listed (s : Shape) (name : String) (base : UInt32) :
    s.leaves name base = listed base (s.declared name) := by
  have hdata := listed_data base (s.listedName name) s
  cases s with
  | struct members =>
    unfold Shape.leaves Shape.declared Shape.declaredUnder
    rw [listed_wrapped (Nat.zero_le 1)]
    exact members.leaves_eq_listed name base 0
  | array inner =>
    have helement := listed_data base (name ++ "[0]") inner
    cases inner with
    | struct members =>
      unfold Shape.leaves Shape.declared Shape.declaredUnder Shape.declaredUnder
      rw [listed_wrapped (Nat.le_refl 1)]
      exact members.leaves_eq_listed (name ++ "[0]") base 0
    -- from the second layer on, an array is taken for data whatever is inside
    | array inner =>
      unfold Shape.leaves Shape.declared Shape.declaredUnder Shape.declaredUnder
      exact (listed_nested inner (name ++ "[0]") base 2 (Nat.le_refl 2)).symm
    | _ => exact helement.symm
  | _ => exact hdata.symm

theorem Members.leaves_eq_listed (members : Members) (name : String) (base : UInt32) (position : Nat) :
    members.leaves name base = listed base (members.declaredFrom name position) := by
  cases members with
  | nil => rfl
  | cons field offset _ shape rest =>
    have hshape : shape.leaves (memberPath name field) (base + offset) =
        listed base ((shape.declared (memberPath name field)).map fun entry =>
          (position :: entry.1, entry.2.shifted offset)) := by
      rw [shape.leaves_eq_listed]
      unfold listed
      rw [List.filterMap_map]
      congr 1
      funext entry
      exact (DeclaredLeaf.uniform?_shifted base offset entry.2).symm
    unfold Members.leaves Members.declaredFrom
    rw [hshape, rest.leaves_eq_listed name base (position + 1)]
    exact List.filterMap_append.symm

end

/-- What is inside of the arrays of a block type has a type id, unless it is a structure. -/
theorem Shape.typeId_peeled : (s : Shape) → s.isBlock = true → s.peeled.isStruct = false →
    ∃ id, s.peeled.typeId = some id
  | .array base, hblock, hdata => base.typeId_peeled hblock hdata
  | .scalar _, hblock, _ | .vector _ _, hblock, _ | .matrix _ _ _, hblock, _ =>
    Option.isSome_iff_exists.mp hblock

theorem Shape.areBlock_peeled {members : Members} : (s : Shape) → s.isBlock = true →
    s.peeled = .struct members → members.areBlock = true
  | .array base, hblock, hstruct => base.areBlock_peeled hblock hstruct
  | .struct _, hblock, hstruct => by
    cases hstruct
    exact hblock

theorem Members.isBlock_of_mem {field : Field} : (members : Members) → members.areBlock = true →
    field ∈ members.fields → field.shape.isBlock = true
  | .cons _ _ _ shape rest, hblock, hfield => by
    obtain ⟨hshape, hrest⟩ := Bool.and_eq_true_iff.mp hblock
    rcases List.mem_cons.mp hfield with rfl | hfield
    · exact hshape
    · exact rest.isBlock_of_mem hrest hfield

theorem LeafAt.exists_typeId {name : String} {s : Shape} {path : List Nat} {leaf : DeclaredLeaf}
    (h : LeafAt name s path leaf) (hblock : s.isBlock = true) : ∃ id, leaf.shape.typeId = some id := by
  induction h with
  | data hdata => exact Shape.typeId_peeled _ hblock hdata
  | member hstruct hfield _ ih =>
    have hmembers := Shape.areBlock_peeled _ hblock hstruct
    exact ih (Members.isBlock_of_mem _ hmembers (List.mem_of_getElem? hfield))

/-- Leaves with type ids and with offsets in range are listed if no array of arrays is on the way. -/
theorem forall₂_listed {entries : List (List Nat × DeclaredLeaf)}
    (h : ∀ entry ∈ entries, (∃ id, entry.2.shape.typeId = some id) ∧ entry.2.offset < 2 ^ 32) :
    List.Forall₂ (fun entry u => entry.2.IsListedAs u)
      (entries.filter fun entry => entry.2.layers ≤ 1) (listed 0 entries) := by
  induction entries with
  | nil => exact .nil
  | cons entry rest ih =>
    obtain ⟨⟨⟨id, hid⟩, hoffset⟩, hrest⟩ := List.forall_mem_cons.mp h
    rw [listed_cons, List.filter_cons]
    by_cases hlayers : entry.2.layers ≤ 1
    · have huniform : entry.2.uniform? 0 =
          some ⟨entry.2.name, id, some (0 + UInt32.ofNat entry.2.offset)⟩ := by
        unfold DeclaredLeaf.uniform?
        rw [if_pos hlayers, hid]
        rfl
      rw [if_pos (decide_eq_true hlayers), huniform]
      refine .cons ⟨rfl, hid, _, rfl, ?_⟩ (ih hrest)
      rw [UInt32.zero_add]
      exact UInt32.toNat_ofNat_of_lt' hoffset
    · have hnone : entry.2.uniform? 0 = none := if_neg hlayers
      rw [if_neg (by simpa using hlayers), hnone]
      exact ih hrest

/-- Of the leaves of a block, those are listed that are not in an array of arrays of structures. They are
listed once each and in the order of declaration, with the type id of what is inside their arrays and with
the sum of the offsets on the way. So all leaves are listed if and only if there is no such array around
one of them. -/
theorem Shape.leaves_exact {block : Shape} {name : String} (hblock : block.isBlock = true)
    (hoffsets : ∀ path leaf, LeafAt name block path leaf → leaf.offset < 2 ^ 32) :
    ∃ declared : List (List Nat × DeclaredLeaf), Lists (LeafAt name block) declared ∧
      List.Forall₂ (fun entry u => entry.2.IsListedAs u)
        (declared.filter fun entry => entry.2.layers ≤ 1) (block.leaves name 0) ∧
      ((block.leaves name 0).length = declared.length ↔
        ∀ path leaf, LeafAt name block path leaf → leaf.layers ≤ 1) := by
  have hlists := block.lists_declared name
  have hentries : ∀ entry ∈ block.declared name,
      (∃ id, entry.2.shape.typeId = some id) ∧ entry.2.offset < 2 ^ 32 := by
    intro entry hentry
    have hleaf := (hlists.mem_iff entry.1 entry.2).mp hentry
    exact ⟨hleaf.exists_typeId hblock, hoffsets _ _ hleaf⟩
  have hlisted := forall₂_listed hentries
  rw [← Shape.leaves_eq_listed] at hlisted
  refine ⟨block.declared name, hlists, hlisted, ?_⟩
  rw [← hlisted.length_eq, List.length_filter_eq_length_iff]
  constructor
  · intro h path leaf hleaf
    exact of_decide_eq_true (h (path, leaf) ((hlists.mem_iff path leaf).mpr hleaf))
  · intro h entry hentry
    exact decide_eq_true (h entry.1 entry.2 ((hlists.mem_iff entry.1 entry.2).mp hentry))

def beamShape : Shape :=
  .struct <| .cons "color" 0 none (.vector 4 ⟨.float, 4⟩) <|
    .cons "range" 16 none (.scalar ⟨.float, 4⟩) .nil

/-- A block with structures in an array and in an array of arrays. -/
def beaconBlock : Shape :=
  .struct <| .cons "tint" 0 none (.vector 4 ⟨.float, 4⟩) <|
    .cons "lights" 16 none (.array beamShape) <|
    .cons "grid" 112 none (.array (.array (.vector 4 ⟨.float, 4⟩))) <|
    .cons "shelves" 208 none (.array (.array beamShape)) .nil

theorem offset_beaconBlock {path : List Nat} {leaf : DeclaredLeaf}
    (h : LeafAt "" beaconBlock path leaf) : leaf.offset < 2 ^ 32 := by
  have hentry := ((beaconBlock.lists_declared "").mem_iff path leaf).mpr h
  have hall : ∀ entry ∈ beaconBlock.declared "", entry.2.offset < 2 ^ 32 := by decide +kernel
  exact hall _ hentry

/-- Four of the six leaves are listed. -/
theorem Shape.leaves_exact_beacon :
    beaconBlock.isBlock = true ∧
    beaconBlock.leaves "" 0 = [⟨"tint", 0x8B52, some 0⟩, ⟨"lights[0].color", 0x8B52, some 16⟩,
      ⟨"lights[0].range", 0x1406, some 32⟩, ⟨"grid[0]", 0x8B52, some 112⟩] ∧
    ∃ declared, Lists (LeafAt "" beaconBlock) declared ∧ declared.length = 6 ∧
      List.Forall₂ (fun entry u => entry.2.IsListedAs u)
        (declared.filter fun entry => entry.2.layers ≤ 1) (beaconBlock.leaves "" 0) := by
  have hblock : beaconBlock.isBlock = true := by decide
  obtain ⟨declared, hdeclared, hlisted, -⟩ :=
    Shape.leaves_exact hblock fun _ _ hleaf => offset_beaconBlock hleaf
  refine ⟨hblock, by decide +kernel, declared, hdeclared, ?_, hlisted⟩
  rw [hdeclared.unique (beaconBlock.lists_declared "")]
  decide +kernel

/-- The leaves in an array of arrays of structures are not listed. -/
theorem Shape.leaves_omitted :
    ¬∀ (block : Shape) (name : String), block.isBlock = true →
      (∀ path leaf, LeafAt name block path leaf → leaf.offset < 2 ^ 32) →
      ∃ declared : List (List Nat × DeclaredLeaf), Lists (LeafAt name block) declared ∧
        List.Forall₂ (fun entry u => entry.2.IsListedAs u) declared (block.leaves name 0) := by
  intro hall
  obtain ⟨declared, hdeclared, hlisted⟩ :=
    hall beaconBlock "" (by decide) fun _ _ hleaf => offset_beaconBlock hleaf
  have hlength := hlisted.length_eq
  -- there is only one list of the leaves in order, and it has six of them
  rw [hdeclared.unique (beaconBlock.lists_declared "")] at hlength
  exact absurd hlength (by decide +kernel)

end EffectLink
