import EffectLink.DataType
import EffectLink.KeyMap

namespace EffectLink

/-- Where a declaration stands: a file and a line of it. -/
structure Location where
  file : String
  line : Nat
  deriving DecidableEq, Inhabited

namespace Location

def text (l : Location) : String := s!"{l.file}:{l.line}"

/-- By file, then by line. -/
def before (a b : Location) : Bool :=
  a.file < b.file || (a.file == b.file && a.line < b.line)

end Location

inductive Direction where
  | input | output | both
  deriving DecidableEq

def Direction.isInput : Direction → Bool
  | .input | .both => true
  | .output => false

def Direction.isOutput : Direction → Bool
  | .output | .both => true
  | .input => false

/-- A function parameter or a structure member. -/
structure Parameter where
  name : String
  type : DataType
  /-- Number of elements of an array. -/
  arraySize : Option UInt32
  location : Location
  direction : Direction
  /-- Pipeline slot, if it is not the position among the inputs or outputs. -/
  slot : Option UInt32
  /-- Colour attachment of a pixel output. -/
  attachment : Option UInt32
  deriving DecidableEq

/-- Whether what is written through `output` can be read through `input` without conversion. -/
def Parameter.compatible (input output : Parameter) : Bool :=
  input.type == output.type && input.arraySize == output.arraySize

inductive Attribute where
  | inputVertices | outputVertices | maxVertexCount | instances
  | localSizeX | localSizeY | localSizeZ
  deriving DecidableEq

def Attribute.all : List Attribute :=
  [.inputVertices, .outputVertices, .maxVertexCount, .instances, .localSizeX, .localSizeY,
   .localSizeZ]

/-- The integer attributes of a function, such as its vertex counts. -/
structure Attributes where
  inputVertices : Option UInt32
  outputVertices : Option UInt32
  maxVertexCount : Option UInt32
  instances : Option UInt32
  localSizeX : Option UInt32
  localSizeY : Option UInt32
  localSizeZ : Option UInt32
  deriving DecidableEq

namespace Attributes

def none : Attributes := ⟨.none, .none, .none, .none, .none, .none, .none⟩

def get? (a : Attributes) : Attribute → Option UInt32
  | .inputVertices => a.inputVertices
  | .outputVertices => a.outputVertices
  | .maxVertexCount => a.maxVertexCount
  | .instances => a.instances
  | .localSizeX => a.localSizeX
  | .localSizeY => a.localSizeY
  | .localSizeZ => a.localSizeZ

def set (a : Attributes) (key : Attribute) (value : UInt32) : Attributes :=
  match key with
  | .inputVertices => { a with inputVertices := value }
  | .outputVertices => { a with outputVertices := value }
  | .maxVertexCount => { a with maxVertexCount := value }
  | .instances => { a with instances := value }
  | .localSizeX => { a with localSizeX := value }
  | .localSizeY => { a with localSizeY := value }
  | .localSizeZ => { a with localSizeZ := value }

/-- The last value of a repeated attribute wins. -/
def ofList (values : List (Attribute × UInt32)) : Attributes :=
  values.foldl (fun a v => a.set v.1 v.2) none

/-- Number of attributes that are given. -/
def count (a : Attributes) : Nat := (Attribute.all.filter fun x => (a.get? x).isSome).length

end Attributes

/-- Each parameter's own choice, or its position in the list. -/
def effective (choice : Parameter → Option UInt32) (parameters : List Parameter) : List UInt32 :=
  parameters.zipIdx.map fun p => (choice p.1).getD (UInt32.ofNat p.2)

structure Function where
  name : String
  location : Location
  returnType : DataType
  parameters : List Parameter
  /-- Marked as the entry point of a stage. -/
  isShader : Bool
  attributes : Attributes
  /-- Stage source. -/
  code : String
  deriving DecidableEq

namespace Function

/-- Value of an attribute, zero if it is not given. -/
def attributeValue (f : Function) (a : Attribute) : UInt32 := (f.attributes.get? a).getD 0

def inputs (f : Function) : List Parameter := f.parameters.filter (·.direction.isInput)

def outputs (f : Function) : List Parameter := f.parameters.filter (·.direction.isOutput)

def inputSlots (f : Function) : List UInt32 := effective (·.slot) f.inputs

def outputSlots (f : Function) : List UInt32 := effective (·.slot) f.outputs

def outputAttachments (f : Function) : List UInt32 := effective (·.attachment) f.outputs

end Function

structure Variable where
  name : String
  location : Location
  type : DataType
  arraySize : Option UInt32
  /-- Declares a subroutine interface that programs bind implementations to. -/
  isPrototype : Bool
  deriving DecidableEq

inductive SubroutineKind where
  | signature | implementation
  deriving DecidableEq

structure Subroutine where
  name : String
  location : Location
  kind : SubroutineKind
  deriving DecidableEq

/-- A user-defined aggregate. -/
structure Structure where
  name : String
  location : Location
  members : List Parameter
  deriving DecidableEq

/-- A named bundle of fixed-function state. -/
structure RenderState where
  name : String
  location : Location
  deriving DecidableEq

/-- A value of an annotation; floating-point values are kept as their bits. -/
inductive AnnotationValue where
  | int (value : Int32)
  | uint (value : UInt32)
  | float (bits : UInt32)
  | double (bits : UInt64)
  | bool (value : Bool)
  | text (value : String)
  deriving DecidableEq

/-- The number written before the value in an artifact. -/
def AnnotationValue.kindCode : AnnotationValue → UInt32
  | .int _ => 0
  | .uint _ => 1
  | .float _ => 2
  | .double _ => 3
  | .bool _ => 4
  | .text _ => 5

structure AnnotationEntry where
  key : String
  value : AnnotationValue
  deriving DecidableEq

/-- Ordered metadata of a program. -/
structure Annotation where
  location : Location
  entries : List AnnotationEntry
  deriving DecidableEq

def Annotation.get? (a : Annotation) (key : String) : Option AnnotationValue :=
  (a.entries.find? (·.key == key)).map (·.value)

/-- One line of a program: a key with its value, and for a stage the subroutine bindings from
interface to implementation. -/
structure ProgramRow where
  key : String
  value : String
  bindings : KeyMap String
  location : Location
  deriving DecidableEq

structure ProgramDecl where
  name : String
  location : Location
  rows : List ProgramRow
  annotation : Option Annotation
  deriving DecidableEq

/-- Everything declared in one effect, in the order of its declaration. -/
structure Effect where
  name : String
  file : String
  structures : List Structure
  globals : List Variable
  subroutines : List Subroutine
  renderStates : List RenderState
  functions : List Function
  programs : List ProgramDecl
  deriving DecidableEq

end EffectLink
