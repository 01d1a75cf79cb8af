import EffectLink.DataType

namespace EffectLink

structure Switches where
  /-- Bind subroutines statically, one shader for each set of bindings. -/
  staticBindings : Bool
  /-- Write generated stage sources next to the artifacts. -/
  dumpSources : Bool
  /-- Ask the backend to optimize. -/
  optimize : Bool
  deriving DecidableEq

namespace Switches

def none : Switches := ⟨false, false, false⟩

def all : Switches := ⟨true, true, true⟩

def union (a b : Switches) : Switches :=
  ⟨a.staticBindings || b.staticBindings, a.dumpSources || b.dumpSources, a.optimize || b.optimize⟩

def bits (s : Switches) : Nat :=
  (if s.staticBindings then 1 else 0) + (if s.dumpSources then 2 else 0) +
    (if s.optimize then 4 else 0)

/-- What a switch turns on, with or without its leading slashes. -/
def ofName? (name : String) : Option Switches :=
  match String.ofList (name.toList.dropWhile (· == '/')) with
  | "NOSUB" => some { none with staticBindings := true }
  | "OUTPUT" => some { none with dumpSources := true }
  | "O" => some { none with optimize := true }
  | _ => Option.none

end Switches

structure Header where
  language : Language
  major : Nat
  minor : Nat
  switches : Switches
  deriving DecidableEq

namespace Header

def unknownProfile (profile : String) : String :=
  s!"unknown target profile `{profile}`; expected one of spv10, glsl450, glsl330, hlsl5, c"

/-- The language a profile starts with, and the version digits after it. -/
def splitProfile? (profile : List Char) : Option (Language × List Char) :=
  match profile with
  | 's' :: 'p' :: 'v' :: digits => some (.spirv, digits)
  | 'g' :: 'l' :: 's' :: 'l' :: digits => some (.glsl, digits)
  | 'h' :: 'l' :: 's' :: 'l' :: digits => some (.hlsl, digits)
  | _ => none

def digitValue (c : Char) : Nat := c.toNat - 48

/-- A profile such as `spv10`, `glsl450`, `hlsl5` or `c`: one digit for the major version, one for
the minor version (zero if there is none), and further digits that carry no meaning. -/
def ofProfile? (profile : String) : Option Header :=
  if profile = "c" then some ⟨.c, 0, 0, .none⟩
  else match splitProfile? profile.toList with
    | none => none
    | some (language, digits) =>
      if digits.all Char.isDigit then
        match digits with
        | [] => none
        | [major] => some ⟨language, digitValue major, 0, .none⟩
        | major :: minor :: _ => some ⟨language, digitValue major, digitValue minor, .none⟩
      else none

def withSwitches (header : Header) (switches : Switches) : Header :=
  { header with switches := header.switches.union switches }

/-- Turns on every known switch; the unknown ones have no effect. -/
def applySwitches (header : Header) (names : List String) : Header :=
  header.withSwitches ((names.filterMap Switches.ofName?).foldl Switches.union .none)

def unknownSwitches (names : List String) : List String :=
  names.filter fun name => (Switches.ofName? name).isNone

def text (header : Header) : String :=
  s!"{header.language.text} {header.major}.{header.minor}"

end Header

/-- What the backend does for a target. -/
inductive Strategy where
  /-- Link, reflect, and produce a binary for every stage. -/
  | portable
  /-- Link and reflect; stages are compiled where they run. -/
  | reflect
  /-- Nothing to link. -/
  | stub
  /-- No way to link this target. -/
  | unsupported
  deriving DecidableEq

namespace Strategy

def ofHeader (header : Header) : Strategy :=
  match header.language with
  | .spirv => if header.major = 1 then .portable else .unsupported
  | .glsl => if 1 ≤ header.major ∧ header.major ≤ 4 then .reflect else .unsupported
  | .hlsl => if 3 ≤ header.major ∧ header.major ≤ 5 then .stub else .unsupported
  | .c => .stub

/-- Whether the stages are compiled first. -/
def needsUnits : Strategy → Bool
  | .portable | .reflect => true
  | .stub | .unsupported => false

end Strategy

end EffectLink
