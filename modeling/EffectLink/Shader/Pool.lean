import EffectLink.Declaration
import EffectLink.Stage

namespace EffectLink

@[ext]
structure Shader where
  stage : Stage
  /-- The function's name, with the static bindings if there are any. -/
  identity : String
  function : Function
  /-- Flags of the program that first asked for this shader. -/
  compileFlags : String
  /-- Bindings built into this version. -/
  bindings : KeyMap String
  deriving DecidableEq

def Shader.hasKey (stage : Stage) (identity : String) (s : Shader) : Bool :=
  s.stage == stage && s.identity == identity

/-- The shaders in the order they were added; an id is a position. -/
structure Pool where
  shaders : List Shader
  deriving DecidableEq

namespace Pool

def empty : Pool := ⟨[]⟩

def size (p : Pool) : Nat := p.shaders.length

def get? (p : Pool) (id : Nat) : Option Shader := p.shaders[id]?

def lookup (p : Pool) (stage : Stage) (identity : String) : Option Nat :=
  p.shaders.findIdx? (Shader.hasKey stage identity)

/-- The shader in the pool with the given stage and identity. -/
def find? (p : Pool) (stage : Stage) (identity : String) : Option Shader :=
  (p.lookup stage identity).bind p.get?

/-- The id of the shader with the same stage and identity; the shader is added if there is none. What
is in the pool is never replaced. -/
def intern (p : Pool) (s : Shader) : Pool × Nat :=
  match p.lookup s.stage s.identity with
  | some id => (p, id)
  | none => (⟨p.shaders ++ [s]⟩, p.size)

end Pool

/-- The pool as it is stored: beside the shaders it has an index from keys to ids of 32 bits. Linking
works on `Pool`, which has no index and ids of any size. -/
structure IndexedPool where
  shaders : List Shader
  index : List ((Stage × String) × UInt32)
  deriving DecidableEq

namespace IndexedPool

def empty : IndexedPool := ⟨[], []⟩

def size (p : IndexedPool) : Nat := p.shaders.length

def get? (p : IndexedPool) (id : UInt32) : Option Shader := p.shaders[id.toNat]?

def lookup (p : IndexedPool) (stage : Stage) (identity : String) : Option UInt32 :=
  p.index.lookup (stage, identity)

/-- The id that the index has for the stage and identity of `s`. If it has none, `s` is added, and its id
is the number of shaders before it, cut to 32 bits. -/
def intern (p : IndexedPool) (s : Shader) : IndexedPool × UInt32 :=
  match p.lookup s.stage s.identity with
  | some id => (p, id)
  | none =>
    let id := UInt32.ofNat p.size
    (⟨p.shaders ++ [s], ((s.stage, s.identity), id) :: p.index⟩, id)

end IndexedPool

end EffectLink
