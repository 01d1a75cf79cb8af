namespace EffectLink

inductive Phase where
  /-- Declarations and the look-up of names. -/
  | symbols
  /-- Program rows and the interfaces between stages. -/
  | programs
  /-- Compiling, linking, reflecting and producing binaries. -/
  | backend
  /-- Writing artifacts. -/
  | output
  /-- The linker itself. -/
  | internal
  deriving DecidableEq

inductive Code where
  | redefinition | unresolvedReference | kindMismatch | structureRecursion | duplicateSlot
  | invalidRow | missingSlot | interfaceCount | interfaceType | patchMismatch
  | unpairedTessellation
  | linkFailure | reflectionFailure | binaryFailure | compileFailure
  | ioFailure
  | internalError
  | conflictingFlags
  | noStrategy
  deriving DecidableEq

namespace Code

def all : List Code :=
  [.redefinition, .unresolvedReference, .kindMismatch, .structureRecursion, .duplicateSlot,
   .invalidRow, .missingSlot, .interfaceCount, .interfaceType, .patchMismatch,
   .unpairedTessellation, .linkFailure, .reflectionFailure, .binaryFailure, .compileFailure,
   .ioFailure, .internalError, .conflictingFlags, .noStrategy]

def text : Code → String
  | .redefinition => "E1001"
  | .unresolvedReference => "E1002"
  | .kindMismatch => "E1003"
  | .structureRecursion => "E1004"
  | .duplicateSlot => "E1005"
  | .invalidRow => "E2001"
  | .missingSlot => "E2002"
  | .interfaceCount => "E2003"
  | .interfaceType => "E2004"
  | .patchMismatch => "E2005"
  | .unpairedTessellation => "E2006"
  | .linkFailure => "E5001"
  | .reflectionFailure => "E5002"
  | .binaryFailure => "E5003"
  | .compileFailure => "E5004"
  | .ioFailure => "E6001"
  | .internalError => "E9001"
  | .conflictingFlags => "W2001"
  | .noStrategy => "W5001"

/-- Stable name for documentation. -/
def name : Code → String
  | .redefinition => "Redefinition"
  | .unresolvedReference => "UnresolvedReference"
  | .kindMismatch => "KindMismatch"
  | .structureRecursion => "StructureRecursion"
  | .duplicateSlot => "DuplicateParameterSlot"
  | .invalidRow => "InvalidRowFlag"
  | .missingSlot => "MissingRequiredSlot"
  | .interfaceCount => "StageInterfaceCount"
  | .interfaceType => "StageInterfaceType"
  | .patchMismatch => "PatchVertexMismatch"
  | .unpairedTessellation => "UnpairedTessellationStage"
  | .linkFailure => "BackendLinkFailure"
  | .reflectionFailure => "ReflectionFailure"
  | .binaryFailure => "BinaryTranslationFailure"
  | .compileFailure => "StageCompileFailure"
  | .ioFailure => "IOFailure"
  | .internalError => "InternalError"
  | .conflictingFlags => "ConflictingCompileFlags"
  | .noStrategy => "NoBackendStrategy"

def phase : Code → Phase
  | .redefinition | .unresolvedReference | .kindMismatch | .structureRecursion
  | .duplicateSlot => .symbols
  | .invalidRow | .missingSlot | .interfaceCount | .interfaceType | .patchMismatch
  | .unpairedTessellation | .conflictingFlags => .programs
  | .linkFailure | .reflectionFailure | .binaryFailure | .compileFailure | .noStrategy => .backend
  | .ioFailure => .output
  | .internalError => .internal

def isWarning : Code → Bool
  | .conflictingFlags | .noStrategy => true
  | _ => false

def ofText? (text : String) : Option Code := all.find? (·.text == text)

end Code

end EffectLink
