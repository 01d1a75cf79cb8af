namespace EffectLink

/-- Builtin kinds, in table order. -/
inductive Kind where
  | float | float2 | float3 | float4 | double | double2 | double3 | double4 | integer
  | integer2 | integer3 | integer4 | uinteger | uinteger2 | uinteger3 | uinteger4 | short
  | short2 | short3 | short4 | bool | bool2 | bool3 | bool4 | matrix2x2 | matrix2x3 | matrix2x4
  | matrix3x2 | matrix3x3 | matrix3x4 | matrix4x2 | matrix4x3 | matrix4x4 | sampler1D
  | sampler1DArray | sampler2D | sampler2DArray | sampler2DMS | sampler2DMSArray | sampler3D
  | samplerCube | samplerCubeArray | image1D | image1DArray | image2D | image2DArray
  | image2DMS | image2DMSArray | image3D | imageCube | imageCubeArray | texture1D
  | texture1DArray | texture2D | texture2DArray | texture2DMS | texture2DMSArray | texture3D
  | textureCube | textureCubeArray | inputAttachment | inputAttachmentMS
  | inputAttachmentInteger | inputAttachmentIntegerMS | inputAttachmentUInteger
  | inputAttachmentUIntegerMS | textureHandle | imageHandle | samplerHandle | void | text
  | undefined
  deriving DecidableEq, Inhabited

/-- The facts of one kind. A language without an equivalent kind has the name `undefined`. -/
structure KindInfo where
  glsl : String
  hlsl : String
  c : String
  /-- Short token for overload keys. -/
  signature : String
  description : String
  /-- Number of scalar components, zero for resources and kinds without data. -/
  components : Nat
  /-- Size of the host representation. -/
  bytes : Nat
  rows : Nat
  columns : Nat
  /-- Scalar element after collapsing vectors and matrices. -/
  primitive : Kind

namespace Kind

def all : List Kind :=
  [.float, .float2, .float3, .float4, .double, .double2, .double3, .double4, .integer, .integer2,
   .integer3, .integer4, .uinteger, .uinteger2, .uinteger3, .uinteger4, .short, .short2, .short3,
   .short4, .bool, .bool2, .bool3, .bool4, .matrix2x2, .matrix2x3, .matrix2x4, .matrix3x2,
   .matrix3x3, .matrix3x4, .matrix4x2, .matrix4x3, .matrix4x4, .sampler1D, .sampler1DArray,
   .sampler2D, .sampler2DArray, .sampler2DMS, .sampler2DMSArray, .sampler3D, .samplerCube,
   .samplerCubeArray, .image1D, .image1DArray, .image2D, .image2DArray, .image2DMS,
   .image2DMSArray, .image3D, .imageCube, .imageCubeArray, .texture1D, .texture1DArray,
   .texture2D, .texture2DArray, .texture2DMS, .texture2DMSArray, .texture3D, .textureCube,
   .textureCubeArray, .inputAttachment, .inputAttachmentMS, .inputAttachmentInteger,
   .inputAttachmentIntegerMS, .inputAttachmentUInteger, .inputAttachmentUIntegerMS,
   .textureHandle, .imageHandle, .samplerHandle, .void, .text, .undefined]

def info : Kind → KindInfo
  | .float => ⟨"float", "float", "float", "f", "float", 1, 4, 1, 1, .float⟩
  | .float2 => ⟨"vec2", "float2", "float", "f2", "float vector [2]", 2, 8, 2, 1, .float⟩
  | .float3 => ⟨"vec3", "float3", "float", "f3", "float vector [3]", 3, 12, 3, 1, .float⟩
  | .float4 => ⟨"vec4", "float4", "float", "f4", "float vector [4]", 4, 16, 4, 1, .float⟩
  | .double => ⟨"double", "double", "double", "d", "double", 1, 8, 1, 1, .double⟩
  | .double2 => ⟨"dvec2", "double2", "double", "d2", "double vector [2]", 2, 16, 2, 1, .double⟩
  | .double3 => ⟨"dvec3", "double3", "double", "d3", "double vector [3]", 3, 24, 3, 1, .double⟩
  | .double4 => ⟨"dvec4", "double4", "double", "d4", "double vector [4]", 4, 32, 4, 1, .double⟩
  | .integer => ⟨"int", "int", "int", "i", "int", 1, 4, 1, 1, .integer⟩
  | .integer2 => ⟨"ivec2", "int2", "int", "i2", "int vector [2]", 2, 8, 2, 1, .integer⟩
  | .integer3 => ⟨"ivec3", "int3", "int", "i3", "int vector [3]", 3, 12, 3, 1, .integer⟩
  | .integer4 => ⟨"ivec4", "int4", "int", "i4", "int vector [4]", 4, 16, 4, 1, .integer⟩
  | .uinteger => ⟨"uint", "uint", "unsigned int", "ui", "unsigned int", 1, 4, 1, 1, .uinteger⟩
  | .uinteger2 =>
    ⟨"uvec2", "uint2", "unsigned int", "ui2", "unsigned int vector [2]", 2, 8, 2, 1, .uinteger⟩
  | .uinteger3 =>
    ⟨"uvec3", "uint3", "unsigned int", "ui3", "unsigned int vector [3]", 3, 12, 3, 1, .uinteger⟩
  | .uinteger4 =>
    ⟨"uvec4", "uint4", "unsigned int", "ui4", "unsigned int vector [4]", 4, 16, 4, 1, .uinteger⟩
  | .short => ⟨"short", "short", "short", "s", "short", 1, 2, 1, 1, .short⟩
  | .short2 => ⟨"svec2", "short2", "short", "s2", "short vector [2]", 2, 4, 2, 1, .short⟩
  | .short3 => ⟨"svec3", "short3", "short", "s3", "short vector [3]", 3, 6, 3, 1, .short⟩
  | .short4 => ⟨"svec4", "short4", "short", "s4", "short vector [4]", 4, 8, 4, 1, .short⟩
  | .bool => ⟨"bool", "bool", "bool", "b", "bool", 1, 1, 1, 1, .bool⟩
  | .bool2 => ⟨"bvec2", "bool2", "bool", "b2", "bool vector [2]", 2, 2, 2, 1, .bool⟩
  | .bool3 => ⟨"bvec3", "bool3", "bool", "b3", "bool vector [3]", 3, 3, 3, 1, .bool⟩
  | .bool4 => ⟨"bvec4", "bool4", "bool", "b4", "bool vector [4]", 4, 4, 4, 1, .bool⟩
  | .matrix2x2 => ⟨"mat2x2", "float2x2", "float", "m22", "matrix [2x2]", 4, 16, 2, 2, .float⟩
  | .matrix2x3 => ⟨"mat2x3", "float2x3", "float", "m23", "matrix [2x3]", 6, 24, 2, 3, .float⟩
  | .matrix2x4 => ⟨"mat2x4", "float2x4", "float", "m24", "matrix [2x4]", 8, 32, 2, 4, .float⟩
  | .matrix3x2 => ⟨"mat3x2", "float3x2", "float", "m32", "matrix [3x2]", 6, 24, 3, 2, .float⟩
  | .matrix3x3 => ⟨"mat3x3", "float3x3", "float", "m33", "matrix [3x3]", 9, 36, 3, 3, .float⟩
  | .matrix3x4 => ⟨"mat3x4", "float3x4", "float", "m34", "matrix [3x4]", 12, 48, 3, 4, .float⟩
  | .matrix4x2 => ⟨"mat4x2", "float4x2", "float", "m42", "matrix [4x2]", 8, 32, 4, 2, .float⟩
  | .matrix4x3 => ⟨"mat4x3", "float4x3", "float", "m43", "matrix [4x3]", 12, 48, 4, 3, .float⟩
  | .matrix4x4 => ⟨"mat4x4", "float4x4", "float", "m44", "matrix [4x4]", 16, 64, 4, 4, .float⟩
  | .sampler1D =>
    ⟨"sampler1D", "Texture1D", "void*", "sam1d", "texture sampler [1D]", 0, 4, 0, 0, .integer⟩
  | .sampler1DArray =>
    ⟨"sampler1DArray", "Texture1DArray", "void*", "sam1da",
     "texture sampler [1D-Array]", 0, 4, 0, 0, .integer⟩
  | .sampler2D =>
    ⟨"sampler2D", "Texture2D", "void*", "sam2d", "texture sampler [2D]", 0, 4, 0, 0, .integer⟩
  | .sampler2DArray =>
    ⟨"sampler2DArray", "Texture2DArray", "void*", "sam2da",
     "texture sampler [2D-Array]", 0, 4, 0, 0, .integer⟩
  | .sampler2DMS =>
    ⟨"sampler2DMS", "Texture2DMS", "void*", "sam2dms",
     "texture sampler [2D-Multisample]", 0, 4, 0, 0, .integer⟩
  | .sampler2DMSArray =>
    ⟨"sampler2DMSArray", "Texture2DMSArray", "void*", "sam2dmsa",
     "texture sampler [2D-Multisample-Array]", 0, 4, 0, 0, .integer⟩
  | .sampler3D =>
    ⟨"sampler3D", "Texture3D", "void*", "sam3d", "texture sampler [3D]", 0, 4, 0, 0, .integer⟩
  | .samplerCube =>
    ⟨"samplerCube", "TextureCube", "void*", "samc", "texture sampler [Cube]", 0, 4, 0, 0, .integer⟩
  | .samplerCubeArray =>
    ⟨"samplerCubeArray", "TextureCubeArray", "void*", "samca",
     "texture sampler [Cube-Array]", 0, 4, 0, 0, .integer⟩
  | .image1D => ⟨"image1D", "RWTexture1D", "void*", "ima1d", "image [1D]", 0, 4, 0, 0, .integer⟩
  | .image1DArray =>
    ⟨"image1DArray", "RWTexture1DArray", "void*", "ima1da",
     "image [1D-Array]", 0, 4, 0, 0, .integer⟩
  | .image2D => ⟨"image2D", "RWTexture2D", "void*", "ima2d", "image [2D]", 0, 4, 0, 0, .integer⟩
  | .image2DArray =>
    ⟨"image2DArray", "RWTexture2DArray", "void*", "ima2da",
     "image [2D-Array]", 0, 4, 0, 0, .integer⟩
  | .image2DMS =>
    ⟨"image2DMS", "undefined", "void*", "ima2dms", "image [2D-Multisample]", 0, 4, 0, 0, .integer⟩
  | .image2DMSArray =>
    ⟨"image2DMSArray", "undefined", "void*", "ima2dmsa",
     "image [2D-Multisample-Array]", 0, 4, 0, 0, .integer⟩
  | .image3D => ⟨"image3D", "RWTexture3D", "void*", "ima3d", "image [3D]", 0, 4, 0, 0, .integer⟩
  | .imageCube => ⟨"imageCube", "undefined", "void*", "imac", "image [Cube]", 0, 4, 0, 0, .integer⟩
  | .imageCubeArray =>
    ⟨"imageCubeArray", "undefined", "void*", "imaca", "image [Cube-Array]", 0, 4, 0, 0, .integer⟩
  | .texture1D => ⟨"texture1D", "undefined", "void*", "tex1d", "texture [1D]", 0, 4, 0, 0, .integer⟩
  | .texture1DArray =>
    ⟨"texture1DArray", "undefined", "void*", "tex1da", "texture [1D-Array]", 0, 4, 0, 0, .integer⟩
  | .texture2D => ⟨"texture2D", "undefined", "void*", "tex2d", "texture [2D]", 0, 4, 0, 0, .integer⟩
  | .texture2DArray =>
    ⟨"texture2DArray", "undefined", "void*", "tex2da", "texture [2D-Array]", 0, 4, 0, 0, .integer⟩
  | .texture2DMS =>
    ⟨"texture2DMS", "undefined", "void*", "tex2dms",
     "texture [2D-Multisample]", 0, 4, 0, 0, .integer⟩
  | .texture2DMSArray =>
    ⟨"texture2DMSArray", "undefined", "void*", "tex2dmsa",
     "texture [2D-Multisample-Array]", 0, 4, 0, 0, .integer⟩
  | .texture3D => ⟨"texture3D", "undefined", "void*", "tex3d", "texture [3D]", 0, 4, 0, 0, .integer⟩
  | .textureCube =>
    ⟨"textureCube", "undefined", "void*", "texc", "texture [Cube]", 0, 4, 0, 0, .integer⟩
  | .textureCubeArray =>
    ⟨"textureCubeArray", "undefined", "void*", "texca",
     "texture [Cube-Array]", 0, 4, 0, 0, .integer⟩
  | .inputAttachment =>
    ⟨"subpassInput", "undefined", "void*", "ia", "input attachment", 0, 4, 0, 0, .integer⟩
  | .inputAttachmentMS =>
    ⟨"subpassInputMS", "undefined", "void*", "iams",
     "input attachment [Multisample]", 0, 4, 0, 0, .integer⟩
  | .inputAttachmentInteger =>
    ⟨"isubpassInput", "undefined", "void*", "iai",
     "input attachment [Integer]", 0, 4, 0, 0, .integer⟩
  | .inputAttachmentIntegerMS =>
    ⟨"isubpassInputMS", "undefined", "void*", "iaims",
     "input attachment [Integer multisample]", 0, 4, 0, 0, .integer⟩
  | .inputAttachmentUInteger =>
    ⟨"usubpassInput", "undefined", "void*", "iau",
     "input attachment [Unsigned integer]", 0, 4, 0, 0, .integer⟩
  | .inputAttachmentUIntegerMS =>
    ⟨"usubpassInputMS", "undefined", "void*", "iaums",
     "input attachment [Unsigned integer multisample]", 0, 4, 0, 0, .integer⟩
  | .textureHandle =>
    ⟨"uint", "uint", "unsigned int", "th", "texture handle [uint]", 1, 4, 1, 1, .uinteger⟩
  | .imageHandle =>
    ⟨"uint", "uint", "unsigned int", "ih", "image handle [uint]", 1, 4, 1, 1, .uinteger⟩
  | .samplerHandle =>
    ⟨"uint", "uint", "unsigned int", "sh", "sampler handle [uint]", 1, 4, 1, 1, .uinteger⟩
  | .void => ⟨"void", "void", "void", "v", "void", 0, 4, 0, 0, .integer⟩
  | .text => ⟨"undefined", "undefined", "const char*", "str", "string", 0, 4, 0, 0, .integer⟩
  | .undefined =>
    ⟨"undefined", "undefined", "void*", "undefined", "undefined", 0, 4, 0, 0, .integer⟩

/-- Position in the table. -/
def index (k : Kind) : Nat := all.idxOf k

/-- Samplers, images, textures and input attachments. -/
def isResource (k : Kind) : Bool :=
  Kind.sampler1D.index ≤ k.index && k.index ≤ Kind.inputAttachmentUIntegerMS.index

/-- Resources carried as an integer. -/
def isHandle : Kind → Bool
  | .textureHandle | .imageHandle | .samplerHandle => true
  | _ => false

def isMatrix (k : Kind) : Bool :=
  Kind.matrix2x2.index ≤ k.index && k.index ≤ Kind.matrix4x4.index

/-- Name of a kind that a language does not have. -/
def undefinedName : String := "undefined"

/-- The kind spelled `name` in either shading language or by its token. The first one in the table
wins, so `uint` is the integer and not a handle. -/
def ofName? (name : String) : Option Kind :=
  if name = undefinedName then some .undefined
  else all.find? fun k => k.info.glsl == name || k.info.hlsl == name || k.info.signature == name

end Kind

end EffectLink
