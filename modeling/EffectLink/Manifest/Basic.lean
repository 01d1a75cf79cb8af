import EffectLink.Declaration
import EffectLink.Json.Shape

namespace EffectLink.Manifest

structure NamedEntry where
  name : String
  line : UInt32
  deriving DecidableEq

structure ParameterEntry where
  name : String
  type : String
  line : Option UInt32
  direction : Direction
  arraySize : Option UInt32
  slot : Option UInt32
  attachment : Option UInt32
  deriving DecidableEq

structure StructureEntry where
  name : String
  line : UInt32
  members : List ParameterEntry
  deriving DecidableEq

structure VariableEntry where
  name : String
  type : String
  line : UInt32
  arraySize : Option UInt32
  isPrototype : Bool
  deriving DecidableEq

structure SubroutineEntry where
  name : String
  line : UInt32
  kind : SubroutineKind
  deriving DecidableEq

structure FunctionEntry where
  name : String
  line : UInt32
  returnType : Option String
  isShader : Bool
  parameters : List ParameterEntry
  attributes : Attributes
  code : Option String
  /-- File of the stage code, relative to the manifest. -/
  codeFile : Option String
  deriving DecidableEq

structure RowEntry where
  key : String
  value : String
  line : UInt32
  bindings : KeyMap String
  deriving DecidableEq

structure AnnotationList where
  line : UInt32
  entries : List AnnotationEntry
  deriving DecidableEq

structure ProgramEntry where
  name : String
  line : UInt32
  rows : List RowEntry
  annotation : Option AnnotationList
  deriving DecidableEq

end Manifest

structure Manifest where
  name : Option String
  /-- The file named in locations, if it is not the manifest. -/
  file : Option String
  structures : List Manifest.StructureEntry
  globals : List Manifest.VariableEntry
  subroutines : List Manifest.SubroutineEntry
  renderStates : List Manifest.NamedEntry
  functions : List Manifest.FunctionEntry
  programs : List Manifest.ProgramEntry
  deriving DecidableEq

namespace Manifest

open Json (Reader Field)

def named : Reader NamedEntry :=
  Json.record
    [.needed "name" Json.text fun v e => { e with name := v },
     .defaulted "line" Json.uint32 fun v e => { e with line := v }]
    ⟨"", 0⟩

def direction : Reader Direction :=
  Json.name [("in", .input), ("out", .output), ("inout", .both)]

def parameter : Reader ParameterEntry :=
  Json.record
    [.needed "name" Json.text fun v e => { e with name := v },
     .needed "type" Json.text fun v e => { e with type := v },
     .defaulted "line" (Json.optional Json.uint32) fun v e => { e with line := v },
     .defaulted "direction" direction fun v e => { e with direction := v },
     .defaulted "array_size" (Json.optional Json.uint32) fun v e => { e with arraySize := v },
     .defaulted "slot" (Json.optional Json.uint32) fun v e => { e with slot := v },
     .defaulted "color_attachment" (Json.optional Json.uint32) fun v e =>
       { e with attachment := v }]
    ⟨"", "", none, .input, none, none, none⟩

def struct : Reader StructureEntry :=
  Json.record
    [.needed "name" Json.text fun v e => { e with name := v },
     .defaulted "line" Json.uint32 fun v e => { e with line := v },
     .defaulted "members" (Json.list parameter) fun v e => { e with members := v }]
    ⟨"", 0, []⟩

def global : Reader VariableEntry :=
  Json.record
    [.needed "name" Json.text fun v e => { e with name := v },
     .needed "type" Json.text fun v e => { e with type := v },
     .defaulted "line" Json.uint32 fun v e => { e with line := v },
     .defaulted "array_size" (Json.optional Json.uint32) fun v e => { e with arraySize := v },
     .defaulted "subroutine" Json.bool fun v e => { e with isPrototype := v }]
    ⟨"", "", 0, none, false⟩

def subroutineKind : Reader SubroutineKind :=
  Json.name [("signature", .signature), ("implementation", .implementation)]

def subroutine : Reader SubroutineEntry :=
  Json.record
    [.needed "name" Json.text fun v e => { e with name := v },
     .defaulted "line" Json.uint32 fun v e => { e with line := v },
     .needed "kind" subroutineKind fun v e => { e with kind := v }]
    ⟨"", 0, .signature⟩

def attributeName : Reader Attribute :=
  Json.name
    [("input_vertices", .inputVertices), ("output_vertices", .outputVertices),
     ("max_vertex_count", .maxVertexCount), ("instances", .instances),
     ("local_size_x", .localSizeX), ("local_size_y", .localSizeY), ("local_size_z", .localSizeZ)]

def attributes : Reader Attributes := Attributes.ofList <$> Json.pairs attributeName Json.uint32

def function : Reader FunctionEntry :=
  Json.record
    [.needed "name" Json.text fun v e => { e with name := v },
     .defaulted "line" Json.uint32 fun v e => { e with line := v },
     .defaulted "return_type" (Json.optional Json.text) fun v e => { e with returnType := v },
     .defaulted "shader" Json.bool fun v e => { e with isShader := v },
     .defaulted "parameters" (Json.list parameter) fun v e => { e with parameters := v },
     .defaulted "attributes" attributes fun v e => { e with attributes := v },
     .defaulted "code" (Json.optional Json.text) fun v e => { e with code := v },
     .defaulted "code_file" (Json.optional Json.text) fun v e => { e with codeFile := v }]
    ⟨"", 0, none, false, [], .none, none, none⟩

def bindings : Reader (KeyMap String) := KeyMap.ofList <$> Json.pairs Json.text Json.text

def row : Reader RowEntry :=
  Json.record
    [.needed "flag" Json.text fun v e => { e with key := v },
     .needed "value" Json.text fun v e => { e with value := v },
     .defaulted "line" Json.uint32 fun v e => { e with line := v },
     .defaulted "subroutines" bindings fun v e => { e with bindings := v }]
    ⟨"", "", 0, ∅⟩

def value : Reader AnnotationValue :=
  Json.tagged
    [("int", .int <$> Json.int32), ("uint", .uint <$> Json.uint32),
     ("float", (fun n => .float (UInt32.ofNat n)) <$> Json.float .single),
     ("double", (fun n => .double (UInt64.ofNat n)) <$> Json.float .double),
     ("bool", .bool <$> Json.bool), ("string", .text <$> Json.text)]

def keyValue : Reader AnnotationEntry :=
  Json.record
    [.needed "key" Json.text fun v e => { e with key := v },
     .needed "value" value fun v e => { e with value := v }]
    ⟨"", .int 0⟩

def annotation : Reader AnnotationList :=
  Json.record
    [.defaulted "line" Json.uint32 fun v e => { e with line := v },
     .needed "entries" (Json.list keyValue) fun v e => { e with entries := v }]
    ⟨0, []⟩

def program : Reader ProgramEntry :=
  Json.record
    [.needed "name" Json.text fun v e => { e with name := v },
     .defaulted "line" Json.uint32 fun v e => { e with line := v },
     .defaulted "rows" (Json.list row) fun v e => { e with rows := v },
     .defaulted "annotation" (Json.optional annotation) fun v e => { e with annotation := v }]
    ⟨"", 0, [], none⟩

def manifest : Reader Manifest :=
  Json.record
    [.defaulted "name" (Json.optional Json.text) fun v e => { e with name := v },
     .defaulted "file" (Json.optional Json.text) fun v e => { e with file := v },
     .defaulted "structures" (Json.list struct) fun v e => { e with structures := v },
     .defaulted "variables" (Json.list global) fun v e => { e with globals := v },
     .defaulted "subroutines" (Json.list subroutine) fun v e => { e with subroutines := v },
     .defaulted "render_states" (Json.list named) fun v e => { e with renderStates := v },
     .defaulted "functions" (Json.list function) fun v e => { e with functions := v },
     .defaulted "programs" (Json.list program) fun v e => { e with programs := v }]
    ⟨none, none, [], [], [], [], [], []⟩

end Manifest

end EffectLink
