import EffectLink.Declaration

namespace EffectLink

/-- A program's entry in the table. -/
structure ProgramSymbol where
  name : String
  location : Location
  deriving DecidableEq

inductive Symbol where
  | global (declared : Variable)
  | function (declared : Function)
  | subroutine (declared : Subroutine)
  | aggregate (declared : Structure)
  | program (declared : ProgramSymbol)
  | renderState (declared : RenderState)
  deriving DecidableEq

inductive SymbolKind where
  | global | function | subroutine | aggregate | program | renderState
  deriving DecidableEq

def SymbolKind.text : SymbolKind → String
  | .global => "variable"
  | .function => "function"
  | .subroutine => "subroutine"
  | .aggregate => "structure"
  | .program => "program"
  | .renderState => "render state"

namespace Symbol

def kind : Symbol → SymbolKind
  | .global _ => .global
  | .function _ => .function
  | .subroutine _ => .subroutine
  | .aggregate _ => .aggregate
  | .program _ => .program
  | .renderState _ => .renderState

def name : Symbol → String
  | .global v => v.name
  | .function f => f.name
  | .subroutine s => s.name
  | .aggregate s => s.name
  | .program p => p.name
  | .renderState r => r.name

def location : Symbol → Location
  | .global v => v.location
  | .function f => f.location
  | .subroutine s => s.location
  | .aggregate s => s.location
  | .program p => p.location
  | .renderState r => r.location

def function? : Symbol → Option Function
  | .function f => some f
  | _ => none

def subroutine? : Symbol → Option Subroutine
  | .subroutine s => some s
  | _ => none

def aggregate? : Symbol → Option Structure
  | .aggregate s => some s
  | _ => none

def renderState? : Symbol → Option RenderState
  | .renderState r => some r
  | _ => none

end Symbol

/-- Why a name cannot be used as what it is used as. -/
inductive LookupError where
  | undefined (name : String)
  | mismatch (name : String) (expected found : SymbolKind)
  deriving DecidableEq

def LookupError.message : LookupError → String
  | .undefined name => s!"'{name}' is not defined"
  | .mismatch name expected found => s!"'{name}' is a {found.text}, expected {expected.text}"

/-- A name that is taken, with the place of its first declaration. -/
structure Redefinition where
  name : String
  previous : Location
  deriving DecidableEq

def Redefinition.message (r : Redefinition) : String :=
  s!"'{r.name}' is already defined at {r.previous.text}"

/-- The declarations of one flat namespace, in order of registration. The first of a name keeps it. -/
structure SymbolTable where
  symbols : List Symbol
  deriving DecidableEq

namespace SymbolTable

def empty : SymbolTable := ⟨[]⟩

def get? (t : SymbolTable) (name : String) : Option Symbol := t.symbols.find? (·.name == name)

def contains (t : SymbolTable) (name : String) : Bool := (t.get? name).isSome

def size (t : SymbolTable) : Nat := t.symbols.length

def register (t : SymbolTable) (symbol : Symbol) : Except Redefinition SymbolTable :=
  match t.get? symbol.name with
  | some previous => .error ⟨symbol.name, previous.location⟩
  | none => .ok ⟨t.symbols ++ [symbol]⟩

def resolve (t : SymbolTable) (name : String) : Except LookupError Symbol :=
  match t.get? name with
  | some symbol => .ok symbol
  | none => .error (.undefined name)

/-- Looks up a symbol that has to be of one kind. -/
def resolveAs {α : Type} (t : SymbolTable) (kind : SymbolKind) (view : Symbol → Option α)
    (name : String) : Except LookupError α :=
  match t.get? name with
  | none => .error (.undefined name)
  | some symbol =>
    match view symbol with
    | some declared => .ok declared
    | none => .error (.mismatch name kind symbol.kind)

/-- Looks up a symbol, of a given kind if there is one. -/
def resolveKind (t : SymbolTable) (kind : Option SymbolKind) (name : String) :
    Except LookupError Symbol :=
  match kind with
  | none => t.resolve name
  | some k => t.resolveAs k (fun symbol => if symbol.kind = k then some symbol else none) name

def resolveAggregate (t : SymbolTable) (name : String) : Except LookupError Structure :=
  t.resolveAs .aggregate Symbol.aggregate? name

def resolveFunction (t : SymbolTable) (name : String) : Except LookupError Function :=
  t.resolveAs .function Symbol.function? name

def resolveSubroutine (t : SymbolTable) (name : String) : Except LookupError Subroutine :=
  t.resolveAs .subroutine Symbol.subroutine? name

def resolveRenderState (t : SymbolTable) (name : String) : Except LookupError RenderState :=
  t.resolveAs .renderState Symbol.renderState? name

end SymbolTable

end EffectLink
