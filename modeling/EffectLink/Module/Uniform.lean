import EffectLink.Backend
import EffectLink.Module.Basic

namespace EffectLink

/-- Type ids of a scalar and of the vector of two of them; longer vectors follow. -/
def Scalar.typeIds : Scalar → Option (UInt32 × UInt32)
  | ⟨.float, 4⟩ => some (0x1406, 0x8B50)
  | ⟨.float, 8⟩ => some (0x140A, 0x8FFC)
  | ⟨.sint, 4⟩ => some (0x1404, 0x8B53)
  | ⟨.uint, 4⟩ => some (0x1405, 0x8DC6)
  | ⟨.bool, _⟩ => some (0x8B56, 0x8B57)
  | _ => none

def Scalar.vectorId (s : Scalar) (size : Nat) : Option UInt32 :=
  match s.typeIds, size with
  | some ids, 1 => some ids.1
  | some ids, 2 => some ids.2
  | some ids, 3 => some (ids.2 + 1)
  | some ids, 4 => some (ids.2 + 2)
  | _, _ => none

/-- Type id of a matrix of single floats. -/
def matrixId : Nat → Nat → Option UInt32
  | 2, 2 => some 0x8B5A
  | 3, 3 => some 0x8B5B
  | 4, 4 => some 0x8B5C
  | 2, 3 => some 0x8B65
  | 2, 4 => some 0x8B66
  | 3, 2 => some 0x8B67
  | 3, 4 => some 0x8B68
  | 4, 2 => some 0x8B69
  | 4, 3 => some 0x8B6A
  | _, _ => none

def imageId : ImageDimension → ImageClass → UInt32
  | _, .depth => 0x8B62
  | _, .storage => 0x904D
  | .d1, .sampled => 0x8B5D
  | .d2, .sampled => 0x8B5E
  | .d3, .sampled => 0x8B5F
  | .cube, .sampled => 0x8B60

namespace Shape

/-- Type id of a shape; an array has that of its element. Some shapes are never listed. -/
def typeId : Shape → Option UInt32
  | .scalar element => element.vectorId 1
  | .vector size element => element.vectorId size
  | .matrix columns rows element =>
    if element = ⟨.float, 4⟩ then matrixId columns rows else none
  | .array base | .bindingArray base _ => base.typeId
  | .image dimension cls => some (imageId dimension cls)
  | .sampler comparison => some (if comparison then 0x8B62 else 0x8B5E)
  | .struct _ | .other => none

/-- The name under which something of this shape is listed. -/
def listedName (name : String) : Shape → String
  | .array _ | .bindingArray _ true => name ++ "[0]"
  | _ => name

end Shape

/-- A member's path below `path`; members of a block without a name stand alone. -/
def memberPath (path name : String) : String := if path.isEmpty then name else s!"{path}.{name}"

mutual
/-- The data leaves of a shape at `path`, `offset` bytes into its block. -/
def Shape.leaves (path : String) (offset : UInt32) : Shape → List LiveUniform
  | .struct members => members.leaves path offset
  | .array (.struct members) => members.leaves (path ++ "[0]") offset
  | .array base =>
    (base.typeId.map fun id => ⟨path ++ "[0]", id, some offset⟩).toList
  | shape =>
    (shape.typeId.map fun id => ⟨shape.listedName path, id, some offset⟩).toList
def Members.leaves (path : String) (offset : UInt32) : Members → List LiveUniform
  | .nil => []
  | .cons name inner _ shape rest =>
    shape.leaves (memberPath path name) (offset + inner) ++ rest.leaves path offset
end

namespace Global

/-- A block is named by its type, else by its global. -/
def blockName (g : Global) : String := (g.typeName <|> g.name).getD ""

/-- What one live global contributes. The members of a block whose global has a name are listed below
the block's name. -/
def reflect (g : Global) : LiveSet :=
  if !g.live then ⟨[], []⟩
  else match g.space with
    | .uniform =>
      let path := if g.name.isSome then g.blockName else ""
      ⟨[g.blockName], g.shape.leaves path 0⟩
    | .handle =>
      match g.name, g.shape.typeId with
      | some name, some id => ⟨[], [⟨g.shape.listedName name, id, none⟩]⟩
      | _, _ => ⟨[], []⟩
    | .other => ⟨[], []⟩

end Global

/-- The live blocks and uniforms of one module, in the order of its globals. -/
def Module.reflect (m : Module) : LiveSet :=
  let parts := m.globals.map Global.reflect
  ⟨parts.flatMap (·.blocks), parts.flatMap (·.uniforms)⟩

end EffectLink
