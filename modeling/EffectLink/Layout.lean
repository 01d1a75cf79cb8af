import EffectLink.Symbol

/-! Structures are packed, without alignment or padding. A structure that contains itself has no
size, and neither has one of 2 ^ 32 bytes or more. -/

namespace EffectLink

inductive LayoutError where
  | lookup (cause : LookupError)
  /-- The structures from the first visit of a name to its second. -/
  | cycle (path : List String)
  | overflow (name : String)
  deriving DecidableEq

def LayoutError.message : LayoutError → String
  | .lookup cause => cause.message
  | .cycle path =>
    let first := path.headD ""
    let through := " -> ".intercalate path
    s!"structure '{first}' contains itself through {through}"
  | .overflow name => s!"size of structure '{name}' does not fit in 32 bits"

/-- One more than the largest size. -/
def sizeLimit : Nat := UInt32.size

namespace SymbolTable

/-- Looks up a member's structure, unless it is being visited already. -/
def enter (t : SymbolTable) (visiting : List String) (name : String) :
    Except LayoutError Structure :=
  if visiting.contains name then .error (.cycle (visiting.dropWhile (· != name) ++ [name]))
  else (t.resolveAggregate name).mapError .lookup

/-- Number of symbols that are not being visited. -/
def unvisited (t : SymbolTable) (visiting : List String) : Nat :=
  (t.symbols.filter fun symbol => !visiting.contains symbol.name).length

theorem enter_eq_ok {t : SymbolTable} {visiting : List String} {name : String} {s : Structure} :
    t.enter visiting name = .ok s ↔ name ∉ visiting ∧ t.resolveAggregate name = .ok s := by
  unfold enter
  by_cases hname : name ∈ visiting
  · simp [hname]
  · rw [if_neg fun h => hname (List.contains_iff_mem.mp h)]
    cases t.resolveAggregate name with
    | error e =>
      constructor
      · intro h
        contradiction
      · rintro ⟨-, h⟩
        contradiction
    | ok found =>
      constructor
      · intro h
        cases h
        exact ⟨hname, rfl⟩
      · rintro ⟨-, h⟩
        cases h
        rfl

/-- Every nested visit is of another symbol of the table, so visits cannot nest without end. -/
theorem unvisited_enter {t : SymbolTable} {visiting : List String} {name : String} {s : Structure}
    (h : t.enter visiting name = .ok s) :
    t.unvisited (visiting ++ [name]) < t.unvisited visiting := by
  obtain ⟨hname, hs⟩ := enter_eq_ok.mp h
  have hsplit : (t.symbols.filter fun symbol => !(visiting ++ [name]).contains symbol.name) =
      (t.symbols.filter fun symbol => !visiting.contains symbol.name).filter fun symbol =>
        !symbol.name == name := by
    rw [List.filter_filter]
    simp [Bool.and_comm, Bool.beq_eq_decide_eq]
  unfold resolveAggregate resolveAs at hs
  cases hfound : t.get? name with
  | none =>
    rw [hfound] at hs
    contradiction
  | some symbol =>
    have hnamed : symbol.name = name := by simpa using List.find?_some hfound
    have hmem : symbol ∈ t.symbols.filter fun symbol => !visiting.contains symbol.name := by
      refine List.mem_filter.mpr ⟨List.mem_of_find?_eq_some hfound, ?_⟩
      simpa [hnamed] using hname
    unfold unvisited
    rw [hsplit]
    exact List.length_filter_lt_length_iff_exists.mpr ⟨symbol, hmem, by simp [hnamed]⟩

/-- What follows from the visits that are one structure longer holds for all visits. -/
theorem visiting_induction (t : SymbolTable) {motive : List String → Prop}
    (step : ∀ visiting, (∀ name s, t.enter visiting name = .ok s → motive (visiting ++ [name])) →
      motive visiting) (visiting : List String) : motive visiting := by
  induction hmeasure : t.unvisited visiting using Nat.strongRecOn generalizing visiting with
  | ind _ ih =>
    subst hmeasure
    apply step
    intro name s h
    exact ih _ (unvisited_enter h) _ rfl

/-- Size of a structure below the structures being visited, which it is the last of. -/
def sizeWithin (t : SymbolTable) (visiting : List String) (s : Structure) :
    Except LayoutError Nat :=
  s.members.foldlM (fun sum member => do
    let element ← match member.type with
      | .builtin kind => Except.ok kind.info.bytes
      | .user name =>
        match _h : t.enter visiting name.text with
        | .error e => .error e
        | .ok inner => sizeWithin t (visiting ++ [name.text]) inner
    let total := sum + element * (member.arraySize.getD 1).toNat
    if total < sizeLimit then .ok total else .error (.overflow s.name)) 0
termination_by t.unvisited visiting
decreasing_by exact unvisited_enter _h

/-- Packed size of a structure, which need not be registered itself. -/
def structureSize (t : SymbolTable) (s : Structure) : Except LayoutError Nat :=
  t.sizeWithin [s.name] s

def byteSize (t : SymbolTable) : DataType → Except LayoutError Nat
  | .builtin kind => .ok kind.info.bytes
  | .user name => do
    let s ← (t.resolveAggregate name.text).mapError .lookup
    t.structureSize s

/-- Whether a member of the structure is of the structure's own type. Longer cycles only show when
the size is computed. -/
def isRecursive (t : SymbolTable) (s : Structure) : Bool :=
  s.members.any fun member =>
    match member.type with
    | .builtin _ => false
    | .user name =>
      match t.resolveAggregate name.text with
      | .ok found => found.name == s.name && found.location == s.location
      | .error _ => false

/-- Builtin members below `path`, depth first. -/
def leavesWithin (t : SymbolTable) (visiting : List String) (path : String) (s : Structure) :
    Except LayoutError (List Parameter) := do
  let leaves ← s.members.mapM fun member =>
    let qualified := s!"{path}.{member.name}"
    match member.type with
    | .builtin _ => Except.ok [{ member with name := qualified }]
    | .user name =>
      match _h : t.enter visiting name.text with
      | .error e => .error e
      | .ok inner => leavesWithin t (visiting ++ [name.text]) qualified inner
  return leaves.flatten
termination_by t.unvisited visiting
decreasing_by exact unvisited_enter _h

/-- Flattens nested structures into their builtin members, each named by its path from `root`. -/
def unroll (t : SymbolTable) (root : String) (s : Structure) :
    Except LayoutError (List Parameter) :=
  t.leavesWithin [s.name] root s

end SymbolTable

end EffectLink
