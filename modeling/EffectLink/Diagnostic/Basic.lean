import EffectLink.Declaration
import EffectLink.Diagnostic.Code

namespace EffectLink

inductive Severity where
  | error | warning | note
  deriving DecidableEq

def Severity.text : Severity → String
  | .error => "error"
  | .warning => "warning"
  | .note => "note"

structure Diagnostic where
  code : Code
  severity : Severity
  message : String
  location : Option Location
  /-- What was being linked, such as a program or a shader. -/
  context : Option String
  notes : List String
  deriving DecidableEq

namespace Diagnostic

def plain (severity : Severity) (code : Code) (message : String) : Diagnostic :=
  ⟨code, severity, message, none, none, []⟩

def error (code : Code) (message : String) (location : Location) : Diagnostic :=
  ⟨code, .error, message, some location, none, []⟩

def warning (code : Code) (message : String) (location : Location) : Diagnostic :=
  ⟨code, .warning, message, some location, none, []⟩

def inContext (d : Diagnostic) (context : String) : Diagnostic := { d with context := some context }

def inProgram (d : Diagnostic) (program : String) : Diagnostic :=
  d.inContext s!"program '{program}'"

def withNote (d : Diagnostic) (note : String) : Diagnostic := { d with notes := d.notes ++ [note] }

def isError (d : Diagnostic) : Bool := d.severity == .error

def isWarning (d : Diagnostic) : Bool := d.severity == .warning

/-- A name declared twice; the note points at the first declaration. -/
def redefinition (kind name : String) (location previous : Location) : Diagnostic :=
  (error .redefinition s!"{kind} '{name}' is already defined" location).withNote
    s!"previous definition at {previous.text}"

/-- A name that nothing is declared under. -/
def unresolved (what name : String) (location : Location) : Diagnostic :=
  error .unresolvedReference s!"{what} '{name}' is not defined" location

/-- A name declared as something else than it is used as. -/
def kindMismatch (name expected found : String) (location : Location) : Diagnostic :=
  error .kindMismatch s!"symbol '{name}' is a {found}, expected {expected}" location

/-- One line for the problem, and one for the location, the context and every note. -/
def text (d : Diagnostic) : String :=
  String.join <|
    [s!"{d.severity.text} [{d.code.text}]: {d.message}"] ++
    (d.location.toList.map fun l => s!"\n  --> {l.text}") ++
    (d.context.toList.map fun c => s!"\n  = in {c}") ++
    (d.notes.map fun n => s!"\n  = note: {n}")

end Diagnostic

end EffectLink
