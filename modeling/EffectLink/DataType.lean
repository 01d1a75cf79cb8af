import EffectLink.Kind

namespace EffectLink

inductive Language where
  | glsl | hlsl
  /-- Compiled from GLSL and sharing its type names. -/
  | spirv
  /-- The host language of companion headers. -/
  | c
  deriving DecidableEq

def Language.text : Language → String
  | .glsl => "glsl"
  | .hlsl => "hlsl"
  | .spirv => "spirv"
  | .c => "c"

/-- Name of a structure, never empty. -/
structure TypeName where
  text : String
  nonempty : text ≠ ""
  deriving DecidableEq

def TypeName.ofText? (text : String) : Option TypeName :=
  if h : text = "" then none else some ⟨text, h⟩

inductive DataType where
  | builtin (kind : Kind)
  | user (name : TypeName)
  deriving DecidableEq

namespace DataType

/-- A reference to a structure; there is none with an empty name. -/
def user? (name : String) : Option DataType := (TypeName.ofText? name).map .user

/-- The builtin kind spelled `name`, else the structure of that name. -/
def ofName? (name : String) : Option DataType :=
  match Kind.ofName? name with
  | some kind => some (.builtin kind)
  | none => user? name

def kind? : DataType → Option Kind
  | .builtin kind => some kind
  | .user _ => none

def userName? : DataType → Option String
  | .builtin _ => none
  | .user name => some name.text

def nameIn (language : Language) : DataType → String
  | .builtin kind =>
    match language with
    | .glsl | .spirv => kind.info.glsl
    | .hlsl => kind.info.hlsl
    | .c => kind.info.c
  | .user name => name.text

def components : DataType → Nat
  | .builtin kind => kind.info.components
  | .user _ => 0

/-- Rows and columns; a scalar has one of each, and what is not numeric has none. -/
def dimensions : DataType → Nat × Nat
  | .builtin kind => (kind.info.rows, kind.info.columns)
  | .user _ => (0, 0)

/-- Scalar element; a structure is its own. -/
def primitive : DataType → DataType
  | .builtin kind => .builtin kind.info.primitive
  | .user name => .user name

def signature : DataType → String
  | .builtin kind => kind.info.signature
  | .user name => name.text

def description : DataType → String
  | .builtin kind => kind.info.description
  | .user name => name.text

def builtinBytes? : DataType → Option Nat
  | .builtin kind => some kind.info.bytes
  | .user _ => none

def isResource : DataType → Bool
  | .builtin kind => kind.isResource
  | .user _ => false

end DataType

end EffectLink
