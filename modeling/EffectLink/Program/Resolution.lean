import EffectLink.Diagnostic.Basic
import EffectLink.Header
import EffectLink.Program.Validation
import EffectLink.Shader.Pool

namespace EffectLink

/-- The function's name, followed by the bindings in parentheses if there are any. -/
def shaderIdentity (function : String) (bindings : KeyMap String) : String :=
  if bindings.isEmpty then function
  else
    let bound := bindings.entries.map fun b => s!"{b.1} = {b.2}"
    function ++ "(" ++ ", ".intercalate bound ++ ")"

/-- A program with its shaders, the pool they are in, and what was reported on the way. -/
structure Resolved where
  program : Program
  pool : Pool
  diagnostics : List Diagnostic
  ok : Bool

namespace Program

def flagWarning (p : Program) (stage : Stage) (identity : String) (location : Location)
    (pooled : Shader) : Diagnostic :=
  (Diagnostic.warning .conflictingFlags
    (s!"{stage.label} shader '{identity}' was already built with compile flags " ++
      s!"'{pooled.compileFlags}'; flags '{p.compileFlags}' are ignored") location).inProgram p.name

/-- Gives one stage its shader. A stage without a shader function is left as it is. -/
def resolveStage (symbols : SymbolTable) (header : Header) (r : Resolved) (stage : Stage) :
    Resolved :=
  match r.program.slot stage with
  | none => r
  | some slot =>
    match stageFunction symbols stage slot with
    | .error _ =>
      let fault := (Diagnostic.error .internalError
        s!"{stage.label} stage has no shader function '{slot.function}'"
        slot.location).inProgram r.program.name
      { r with diagnostics := r.diagnostics ++ [fault], ok := false }
    | .ok function =>
      let built : KeyMap String := if header.switches.staticBindings then slot.bindings else ∅
      let left : KeyMap String := if header.switches.staticBindings then ∅ else slot.bindings
      let identity := shaderIdentity function.name built
      let warnings := match r.pool.find? stage identity with
        | some pooled =>
          if pooled.compileFlags = r.program.compileFlags then []
          else [r.program.flagWarning stage identity slot.location pooled]
        | none => []
      -- A shader that is in the pool keeps the flags it was first asked for.
      let (pool, id) := r.pool.intern
        { stage, identity, function, compileFlags := r.program.compileFlags, bindings := built }
      { program := r.program.setSlot stage
          { slot with shaderName := identity, bindings := left, shader := some id }
        pool
        diagnostics := r.diagnostics ++ warnings
        ok := r.ok }

def resolve (p : Program) (symbols : SymbolTable) (header : Header) (pool : Pool) : Resolved :=
  Stage.all.foldl (resolveStage symbols header) ⟨p, pool, [], true⟩

end Program

end EffectLink
