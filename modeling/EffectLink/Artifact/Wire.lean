import EffectLink.Text.Utf8

/-! The wire format of artifacts. Integers are little-endian, text stands behind its length in
bytes, and a tag is four characters, the last one first. What was read before a fault stays read. -/

namespace EffectLink.Wire

/-- A four-character mark. -/
structure Tag where
  first : UInt8
  second : UInt8
  third : UInt8
  fourth : UInt8
  deriving DecidableEq

def Tag.bytes (t : Tag) : Bytes := [t.first, t.second, t.third, t.fourth]

def Tag.text (t : Tag) : String := Utf8.lenient t.bytes

def bool (value : Bool) : Bytes := [if value then 1 else 0]

def word (value : UInt32) : Bytes :=
  [value.toUInt8, (value >>> 8).toUInt8, (value >>> 16).toUInt8, (value >>> 24).toUInt8]

def int (value : Int32) : Bytes := word value.toUInt32

/-- The lower half, then the upper half. -/
def longWord (value : UInt64) : Bytes := word value.toUInt32 ++ word (value >>> 32).toUInt32

/-- A length or number of items, cut to 32 bits. -/
def count (n : Nat) : Bytes := word (UInt32.ofNat n)

def text (value : String) : Bytes :=
  let bytes := Utf8.encode value
  count bytes.length ++ bytes

def tag (t : Tag) : Bytes := [t.fourth, t.third, t.second, t.first]

/-- A block of words: its length in bytes, then the words. -/
def words (values : List UInt32) : Bytes :=
  count (values.length * 4) ++ values.flatMap word

inductive Fault where
  | truncated (offset needed : Nat)
  | badTag (offset : Nat) (expected found : Tag)
  | notText (offset : Nat)
  | badBool (offset : Nat) (value : UInt8)
  | badKind (offset : Nat) (kind : UInt32)
  | unaligned (offset : Nat) (length : UInt32)
  | trailing (length : Nat)
  deriving DecidableEq

def Fault.message : Fault → String
  | .truncated offset needed =>
    s!"unexpected end of data at byte {offset}: {needed} more bytes needed"
  | .badTag offset expected found =>
    s!"expected tag '{expected.text}' at byte {offset}, found '{found.text}'"
  | .notText offset => s!"string at byte {offset} is not valid UTF-8"
  | .badBool offset value => s!"bool at byte {offset} has value {value}"
  | .badKind offset kind => s!"unknown annotation value kind {kind} at byte {offset}"
  | .unaligned offset length =>
    s!"binary length {length} at byte {offset} is not a whole number of words"
  | .trailing length => s!"{length} bytes left over after the program record"

/-- What is left to read, and how much has been read. -/
structure Cursor where
  rest : Bytes
  position : Nat
  deriving DecidableEq

def Cursor.start (bytes : Bytes) : Cursor := ⟨bytes, 0⟩

def Cursor.remaining (c : Cursor) : Nat := c.rest.length

def Cursor.atEnd (c : Cursor) : Bool := c.rest.isEmpty

/-- A step of reading: its outcome, and the cursor after it. -/
def Read (α : Type) : Type := Cursor → Except Fault α × Cursor

namespace Read

variable {α β : Type}

def pure (a : α) : Read α := fun c => (.ok a, c)

def fail (fault : Fault) : Read α := fun c => (.error fault, c)

def bind (r : Read α) (f : α → Read β) : Read β := fun c =>
  match r c with
  | (.ok a, next) => f a next
  | (.error fault, next) => (.error fault, next)

instance : Monad Read where
  pure := Read.pure
  bind := Read.bind

def position : Read Nat := fun c => (.ok c.position, c)

def bytes (length : Nat) : Read Bytes := fun c =>
  if c.remaining < length then (.error (.truncated c.position (length - c.remaining)), c)
  else (.ok (c.rest.take length), ⟨c.rest.drop length, c.position + length⟩)

def bool : Read Bool := do
  let offset ← position
  match ← bytes 1 with
  | [0] => return false
  | [1] => return true
  | other => fail (.badBool offset (other.headD 0))

/-- The word with the given bytes, the least significant first. -/
def assemble : Bytes → UInt32
  | [a, b, c, d] =>
    a.toUInt32 ||| (b.toUInt32 <<< 8) ||| (c.toUInt32 <<< 16) ||| (d.toUInt32 <<< 24)
  | _ => 0

def word : Read UInt32 := do return assemble (← bytes 4)

def int : Read Int32 := do return (← word).toInt32

def longWord : Read UInt64 := do
  let all ← bytes 8
  return (assemble (all.take 4)).toUInt64 ||| ((assemble (all.drop 4)).toUInt64 <<< 32)

def count : Read Nat := do return (← word).toNat

def text : Read String := do
  let length ← count
  let offset ← position
  match Utf8.decode? (← bytes length) with
  | some value => return value
  | none => fail (.notText offset)

def tag : Read Tag := do
  match ← bytes 4 with
  | [a, b, c, d] => return ⟨d, c, b, a⟩
  | _ => return ⟨0, 0, 0, 0⟩

def expectTag (expected : Tag) : Read Unit := do
  let offset ← position
  let found ← tag
  if found = expected then return () else fail (.badTag offset expected found)

/-- Groups of four bytes. -/
def grouped : Bytes → List UInt32
  | a :: b :: c :: d :: rest => assemble [a, b, c, d] :: grouped rest
  | _ => []

def words : Read (List UInt32) := do
  let offset ← position
  let length ← word
  if length % 4 = 0 then return grouped (← bytes length.toNat)
  else fail (.unaligned offset length)

/-- As many items as `n` says, stopping at the first fault. -/
def items (item : Read α) : Nat → Read (List α)
  | 0 => Read.pure []
  | n + 1 => do
    let first ← item
    let more ← items item n
    return first :: more

/-- A count and that many items. -/
def counted (item : Read α) : Read (List α) := do items item (← count)

end Read

end EffectLink.Wire
