import EffectLink.Diagnostic.Basic

namespace EffectLink

/-- When to style output. -/
inductive ColorMode where
  /-- Only on a terminal. -/
  | auto
  | always
  | never
  deriving DecidableEq

def ColorMode.styled (mode : ColorMode) (terminal : Bool) : Bool :=
  match mode with
  | .auto => terminal
  | .always => true
  | .never => false

inductive Style where
  | error | warning | note | code | path
  deriving DecidableEq

namespace Style

/-- Sequence that turns the style on. -/
def escape : Style → String
  | .error => "\x1b[1;31m"
  | .warning => "\x1b[1;33m"
  | .note => "\x1b[1;36m"
  | .code => "\x1b[1m"
  | .path => "\x1b[1;34m"

def ofSeverity : Severity → Style
  | .error => .error
  | .warning => .warning
  | .note => .note

def paint (styled : Bool) (style : Style) (text : String) : String :=
  if styled then style.escape ++ text ++ "\x1b[0m" else text

end Style

/-- A diagnostic as a block of lines, closed by an empty one. -/
def Diagnostic.block (styled : Bool) (d : Diagnostic) : String :=
  let paint := Style.paint styled
  String.join <|
    [paint (.ofSeverity d.severity) d.severity.text, " ", paint .code s!"[{d.code.text}]",
     s!": {d.message}\n"] ++
    (d.location.toList.map fun l => "  --> " ++ paint .path l.text ++ "\n") ++
    (d.context.toList.map fun c => s!"  = in {c}\n") ++
    (d.notes.map fun n => "  = " ++ paint .code "note" ++ s!": {n}\n") ++
    ["\n"]

def counted (n : Nat) (noun : String) : String :=
  if n = 1 then s!"1 {noun}" else s!"{n} {noun}s"

/-- The closing line of a run; a run without problems has none. -/
def summary (styled : Bool) (errors warnings : Nat) : String :=
  let paint := Style.paint styled
  if errors = 0 then
    if warnings = 0 then ""
    else paint .warning "warning" ++ ": link finished with " ++ counted warnings "warning" ++ "\n"
  else
    paint .error "error" ++ ": link failed with " ++ counted errors "error" ++
      (if warnings = 0 then "" else " and " ++ counted warnings "warning") ++ "\n"

end EffectLink
