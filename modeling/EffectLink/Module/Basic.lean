import EffectLink.Stage

/-! Compiled stage modules. A type table lists each type after the types it is made of, so every
entry of it stands for a finite shape. -/

namespace EffectLink

inductive ScalarKind where
  | sint | uint | float | bool | abstractInt | abstractFloat
  deriving DecidableEq

structure Scalar where
  kind : ScalarKind
  /-- Width in bytes. -/
  width : Nat
  deriving DecidableEq

inductive ImageDimension where
  | d1 | d2 | d3 | cube
  deriving DecidableEq

inductive ImageClass where
  | sampled | depth | storage
  deriving DecidableEq

/-- How a value enters or leaves a stage. -/
inductive Binding where
  | builtin
  | location (index : UInt32)
  deriving DecidableEq

mutual
/-- What a type is made of. -/
inductive Shape where
  | scalar (element : Scalar)
  | vector (size : Nat) (element : Scalar)
  | matrix (columns rows : Nat) (element : Scalar)
  | array (base : Shape)
  /-- An array of resources, of a fixed size or not. -/
  | bindingArray (base : Shape) (fixed : Bool)
  | struct (members : Members)
  | image (dimension : ImageDimension) (cls : ImageClass)
  | sampler (comparison : Bool)
  | other
  deriving DecidableEq
inductive Members where
  | nil
  | cons (name : String) (offset : UInt32) (binding : Option Binding) (shape : Shape)
      (rest : Members)
  deriving DecidableEq
end

instance : Inhabited Shape := ⟨.other⟩

/-- A row of a type table; the types it is made of are given by their positions. -/
inductive TypeRow where
  | plain (shape : Shape)
  | array (base : Nat)
  | bindingArray (base : Nat) (fixed : Bool)
  | struct (members : List (String × UInt32 × Option Binding × Nat))

namespace TypeRow

/-- The shape of a row, given the shapes of the rows before it. -/
def shape (earlier : List Shape) : TypeRow → Shape
  | .plain shape => shape
  | .array base => .array (earlier.getD base .other)
  | .bindingArray base fixed => .bindingArray (earlier.getD base .other) fixed
  | .struct members => .struct <| members.foldr (fun (name, offset, binding, type) rest =>
      .cons name offset binding (earlier.getD type .other) rest) .nil

/-- The shapes of a whole table. -/
def shapes (rows : List TypeRow) : List Shape :=
  rows.foldl (fun earlier row => earlier ++ [row.shape earlier]) []

end TypeRow

inductive AddressSpace where
  | uniform | handle | other
  deriving DecidableEq

structure Global where
  name : Option String
  space : AddressSpace
  typeName : Option String
  shape : Shape
  /-- Whether some entry point uses it. -/
  live : Bool
  deriving DecidableEq

structure EntryPoint where
  stage : Stage
  arguments : List (Shape × Option Binding)
  result : Option (Shape × Option Binding)
  deriving DecidableEq

structure Module where
  globals : List Global
  entryPoints : List EntryPoint
  /-- The binary of the stage's entry point, or the log of the failure to produce it. -/
  binary : Except String (List UInt32)

end EffectLink
