import EffectLink.Shader.Pool
import EffectLink.Text.Blank

namespace EffectLink

/-- Why a shader has no source. -/
inductive SourceError where
  | blankCode (function : String)
  deriving DecidableEq

def SourceError.message : SourceError → String
  | .blankCode function => s!"function '{function}' has no stage code"

namespace Shader

def bindingLine (binding : String × String) : String := s!"#define {binding.1} {binding.2}\n"

/-- A flag `NAME=VALUE` defines a name as a value, a bare `NAME` defines it as nothing. -/
def flagLine (flag : List Char) : String :=
  match Text.splitFirst '=' flag with
  | some (name, value) => s!"#define {String.ofList name} {String.ofList value}\n"
  | none => s!"#define {String.ofList flag}\n"

/-- The definition lines: the bindings in key order, then the flags in order. -/
def definitions (s : Shader) : List String :=
  s.bindings.entries.map bindingLine ++ (Text.words s.compileFlags.toList).map flagLine

/-- The first line, with its line break if it has one, and what follows. -/
def splitFirstLine : List Char → List Char × List Char
  | [] => ([], [])
  | c :: rest =>
    if c = '\n' then ([c], rest)
    else
      let halves := splitFirstLine rest
      (c :: halves.1, halves.2)

def versionDirective : List Char := "#version".toList

/-- Code cut after its version directive; without one on the first line everything is body. -/
def splitVersion (code : List Char) : List Char × List Char :=
  let halves := splitFirstLine code
  if versionDirective.isPrefixOf (Text.trimStart halves.1) then halves else ([], code)

/-- Ends a line that has no line break. -/
def closeLine (line : List Char) : List Char :=
  if line.isEmpty || line.getLast? = some '\n' then line else line ++ ['\n']

def source (s : Shader) : Except SourceError String :=
  let code := s.function.code
  if Text.isBlankText code then .error (.blankCode s.function.name)
  else match s.definitions with
    | [] => .ok code
    | lines =>
      let (version, body) := splitVersion code.toList
      .ok (String.ofList (closeLine version) ++ String.join lines ++ String.ofList body)

end Shader

end EffectLink
