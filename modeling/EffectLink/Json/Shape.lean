import EffectLink.Json.Reader

namespace EffectLink.Json

/-- Looks at the first character of a value. -/
def first : Reader Char := do
  match ← peek with
  | none => fail .truncated
  | some c => return c

def text : Reader String := do
  let c ← first
  if c = '"' then advance *> textBody else refuse c

def bool : Reader Bool := do
  let c ← first
  if c = 't' then do advance; word ['r', 'u', 'e']; return true
  else if c = 'f' then do advance; word ['a', 'l', 's', 'e']; return false
  else refuse c

def null : Reader Unit := do
  let c ← first
  if c = 'n' then advance *> word ['u', 'l', 'l'] else refuse c

def anyNumber : Reader Value := do
  let c ← first
  if c = '-' then advance *> number true
  else if c.isDigit then number false
  else refuse c

/-- An integer of 32 bits without sign. -/
def uint32 : Reader UInt32 := do
  match ← anyNumber with
  | .natural n => if n < UInt32.size then return UInt32.ofNat n else fail .unfit
  | _ => fail .unfit

/-- An integer of 32 bits with sign. -/
def int32 : Reader Int32 := do
  match ← anyNumber with
  | .natural n => if n < Int32.size / 2 then return Int32.ofInt n else fail .unfit
  | .below n => if n ≤ Int32.size / 2 then return Int32.ofInt (-(n : Int)) else fail .unfit
  | .double _ => fail .unfit

/-- A number in a floating-point format. Integers are rounded once, other numbers by way of a
double. -/
def float (format : Number.Format) : Reader Nat := do
  match ← anyNumber with
  | .natural n => return format.nearest n 1
  | .below n => return format.signed true (format.nearest n 1)
  | .double bits =>
    let double := Number.Format.double
    return format.signed (double.isNegative bits) (double.convert format (double.magnitude bits))

/-- A value or `null`. -/
def optional {α : Type} (item : Reader α) : Reader (Option α) := do
  match ← peek with
  | some 'n' => do advance; word ['u', 'l', 'l']; return none
  | _ => some <$> item

/-- Whether another element follows in an array; `fresh` says that there was none before. -/
def nextElement (fresh : Bool) : Reader Bool := do
  match ← peek with
  | none => fail .truncated
  | some ']' => return false
  | some c =>
    if fresh then return true
    else if c = ',' then do
      advance
      match ← peek with
      | none => fail .truncated
      | some ']' => fail .malformed
      | some _ => return true
    else fail .malformed

/-- Whether another key follows in an object. -/
def nextKey (fresh : Bool) : Reader Bool := do
  match ← peek with
  | none => fail .truncated
  | some '\x7d' => return false
  | some c =>
    if fresh then if c = '"' then return true else fail .malformed
    else if c = ',' then do
      advance
      match ← peek with
      | none => fail .truncated
      | some '"' => return true
      | some _ => fail .malformed
    else fail .malformed

/-- The end of an array. -/
def endArray : Reader Unit := do
  match ← peek with
  | none => fail .truncated
  | some ']' => advance
  | some _ => fail .malformed

def elementsWithin {α : Type} (item : Reader α) : Nat → Bool → Reader (List α)
  | 0, _ => fail .malformed
  | fuel + 1, fresh => do
    if ← nextElement fresh then do
      let head ← item
      return head :: (← elementsWithin item fuel false)
    else return []

/-- An array has fewer elements than the text has characters. -/
def list {α : Type} (item : Reader α) : Reader (List α) := do
  let c ← first
  if c = '[' then do
    advance
    let rest ← get
    let items ← elementsWithin item (rest.length + 1) true
    endArray
    return items
  else refuse c

def pairsWithin {κ α : Type} (key : Reader κ) (value : Reader α) :
    Nat → Bool → Reader (List (κ × α))
  | 0, _ => fail .malformed
  | fuel + 1, fresh => do
    if ← nextKey fresh then do
      let k ← key
      expect ':'
      let v ← value
      return (k, v) :: (← pairsWithin key value fuel false)
    else return []

/-- The pairs of an object, in order. -/
def pairs {κ α : Type} (key : Reader κ) (value : Reader α) : Reader (List (κ × α)) := do
  let c ← first
  if c = '\x7b' then do
    advance
    let rest ← get
    let found ← pairsWithin key value (rest.length + 1) true
    advance
    return found
  else refuse c

/-- A field of a record under construction. -/
structure Field (σ : Type) where
  name : String
  required : Bool
  read : Reader (σ → σ)

namespace Field

variable {σ α : Type}

/-- A field that has to be given. -/
def needed (name : String) (item : Reader α) (set : α → σ → σ) : Field σ :=
  ⟨name, true, set <$> item⟩

/-- A field that may be left out. -/
def defaulted (name : String) (item : Reader α) (set : α → σ → σ) : Field σ :=
  ⟨name, false, set <$> item⟩

end Field

variable {σ : Type}

/-- Reads the fields of an object. A field may be given once, unknown ones are skipped, and what is
missing shows at the end. -/
def fieldsWithin (fields : List (Field σ)) : Nat → List String → σ → Bool → Reader σ
  | 0, _, _, _ => fail .malformed
  | fuel + 1, given, state, fresh => do
    if ← nextKey fresh then do
      advance
      let name ← textBody
      match fields.find? (·.name == name) with
      | some field =>
        if given.contains name then fail .unfit
        else do
          expect ':'
          let change ← field.read
          fieldsWithin fields fuel (name :: given) (change state) false
      | none => do
        expect ':'
        skip
        fieldsWithin fields fuel given state false
    else if fields.any fun field => field.required && !given.contains field.name then fail .unfit
    else return state

/-- Reads the fields of an array in order; those at the end may be left off unless they have to be
given. -/
def positional : List (Field σ) → σ → Bool → Reader σ
  | [], state, _ => return state
  | field :: rest, state, fresh => do
    if ← nextElement fresh then do
      let change ← field.read
      positional rest (change state) false
    else if field.required then fail .unfit
    else positional rest state fresh

/-- A record that starts out as `state`. -/
def record (fields : List (Field σ)) (state : σ) : Reader σ := do
  let c ← first
  if c = '[' then do
    advance
    let result ← positional fields state true
    endArray
    return result
  else if c = '\x7b' then do
    advance
    let rest ← get
    let result ← fieldsWithin fields (rest.length + 1) [] state true
    advance
    return result
  else refuse c

/-- One of several readers by the name that a text gives. -/
def chosen {α : Type} (choices : List (String × α)) : Reader α := do
  match choices.lookup (← text) with
  | some choice => return choice
  | none => fail .unfit

/-- A choice: its name, for which `bare` says what it means, or an object with the name as its key and
its content, which `content` reads. -/
def choice {α β : Type} (choices : List (String × α)) (bare : α → Reader β)
    (content : α → Reader β) : Reader β := do
  match ← peek with
  | none => fail .truncated
  | some '"' => do bare (← chosen choices)
  | some '\x7b' => do
    advance
    match ← peek with
    | none => fail .truncated
    | some '"' => do
      let found ← chosen choices
      expect ':'
      let result ← content found
      expect '\x7d'
      return result
    | some _ => fail .malformed
  | some _ => fail .malformed

/-- A choice without content. -/
def name {α : Type} (choices : List (String × α)) : Reader α :=
  choice choices pure fun found => do null; return found

/-- A choice that has content. -/
def tagged {β : Type} (choices : List (String × Reader β)) : Reader β :=
  choice choices (fun _ => fail .unfit) id

/-- Reads a whole text. -/
def parse {α : Type} (item : Reader α) (input : String) : Except Fault α :=
  match item.run input.toList with
  | .error fault => .error fault
  | .ok (result, rest) => if rest.all isSpace then .ok result else .error .malformed

end EffectLink.Json
