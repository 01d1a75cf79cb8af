import EffectLink.Number.Binary
import EffectLink.Text.Utf8

/-! JSON text is read from left to right in one pass, as what is asked for and without building a
value first; the first thing that is wrong decides the outcome. -/

namespace EffectLink.Json

inductive Fault where
  /-- Not JSON. -/
  | malformed
  /-- The text ends within a value. -/
  | truncated
  /-- JSON, and not what is asked for. -/
  | unfit
  deriving DecidableEq

def Fault.message : Fault → String
  | .malformed => "malformed text"
  | .truncated => "unexpected end of text"
  | .unfit => "unexpected value"

/-- A step of reading, from a text to a result and the rest of the text. -/
abbrev Reader (α : Type) := StateT (List Char) (Except Fault) α

def fail {α : Type} (fault : Fault) : Reader α := throw fault

def isSpace (c : Char) : Bool := c == ' ' || c == '\n' || c == '\t' || c == '\r'

/-- Skips spaces and looks at the next character. -/
def peek : Reader (Option Char) := fun text =>
  let rest := text.dropWhile isSpace
  .ok (rest.head?, rest)

/-- The next character, spaces included. -/
def peekChar : Reader (Option Char) := fun text => .ok (text.head?, text)

/-- Takes one character. -/
def advance : Reader Unit := fun text => .ok ((), text.tail)

/-- The rest of a word such as `null` whose first character has been taken. -/
def word : List Char → Reader Unit
  | [] => pure ()
  | expected :: rest => do
    match ← peekChar with
    | none => fail .truncated
    | some c => if c = expected then advance *> word rest else fail .malformed

/-- Takes a punctuation character. -/
def expect (mark : Char) : Reader Unit := do
  match ← peek with
  | none => fail .truncated
  | some c => if c = mark then advance else fail .malformed

def hexValue? (c : Char) : Option Nat :=
  if '0' ≤ c && c ≤ '9' then some (c.toNat - 48)
  else if 'a' ≤ c && c ≤ 'f' then some (c.toNat - 87)
  else if 'A' ≤ c && c ≤ 'F' then some (c.toNat - 55)
  else none

/-- Four hexadecimal digits. A text with fewer than four bytes left has ended too early, whatever they
are. -/
def fourDigits : Reader Nat := fun text =>
  match (text.take 4).mapM hexValue? with
  | some [a, b, c, d] => .ok (((a * 16 + b) * 16 + c) * 16 + d, text.drop 4)
  | _ =>
    if (Utf8.encode (String.ofList (text.take 4))).length < 4 then .error .truncated
    else .error .malformed

/-- The character that follows a backslash, for the short escapes. -/
def shortEscape? : Char → Option Char
  | '"' => some '"'
  | '\\' => some '\\'
  | '/' => some '/'
  | 'b' => some '\x08'
  | 'f' => some '\x0c'
  | 'n' => some '\n'
  | 'r' => some '\r'
  | 't' => some '\t'
  | _ => none

def isLeading (unit : Nat) : Bool := 0xD800 ≤ unit && unit ≤ 0xDBFF

def isTrailing (unit : Nat) : Bool := 0xDC00 ≤ unit && unit ≤ 0xDFFF

/-- A character that has to follow immediately. -/
def mustFollow (mark : Char) : Reader Unit := do
  match ← peekChar with
  | none => fail .truncated
  | some c => if c = mark then advance else fail .malformed

/-- The character of a numeric escape. Two escapes of a surrogate pair make one character, and half of
a pair makes none. -/
def numericEscape : Reader Char := do
  let unit ← fourDigits
  if isTrailing unit then fail .malformed
  else if isLeading unit then do
    mustFollow '\\'
    mustFollow 'u'
    let second ← fourDigits
    if isTrailing second then
      return Char.ofNat ((unit - 0xD800) * 1024 + (second - 0xDC00) + 0x10000)
    else fail .malformed
  else return Char.ofNat unit

/-- The characters of a text up to its closing quote, each with the escape that it may begin. A text
has no more characters than `fuel`. -/
def textWithin (escape : Reader Char) : Nat → Reader (List Char)
  | 0 => fail .truncated
  | fuel + 1 => do
    match ← peekChar with
    | none => fail .truncated
    | some c =>
      advance
      if c = '"' then return []
      else if c = '\\' then do
        match ← peekChar with
        | none => fail .truncated
        | some e =>
          advance
          let first ←
            if e = 'u' then escape
            else match shortEscape? e with
              | some short => pure short
              | none => fail .malformed
          return first :: (← textWithin escape fuel)
      else if c.toNat < 0x20 then fail .malformed
      else return c :: (← textWithin escape fuel)

/-- A text whose opening quote has been taken. -/
def textBody : Reader String := do
  let rest ← get
  return String.ofList (← textWithin numericEscape (rest.length + 1))

/-- A text that nobody looks at; half of a surrogate pair does no harm in it. -/
def skipTextBody : Reader Unit := do
  let rest ← get
  let _ ← textWithin (do let _ ← fourDigits; return '?') (rest.length + 1)

/-- A number as written. -/
structure Numeral where
  negative : Bool
  whole : List Char
  fraction : Option (List Char)
  /-- Sign and digits of the exponent. -/
  exponent : Option (Bool × List Char)
  deriving DecidableEq

def digits : Reader (List Char) := fun text =>
  .ok (text.takeWhile Char.isDigit, text.dropWhile Char.isDigit)

/-- At least one digit; `atEnd` is the fault of a text that ends instead. -/
def someDigits (atEnd : Fault) : Reader (List Char) := do
  match ← digits with
  | [] => do
    match ← peekChar with
    | none => fail atEnd
    | some _ => fail .malformed
  | found => return found

/-- A number whose sign has been taken. -/
def numeral (atEnd : Fault) (negative : Bool) : Reader Numeral := do
  let whole ← someDigits atEnd
  if whole.head? = some '0' && 1 < whole.length then fail .malformed
  let fraction ← do
    match ← peekChar with
    | some '.' => advance; some <$> someDigits atEnd
    | _ => pure none
  let exponent ← do
    match ← peekChar with
    | some 'e' | some 'E' =>
      advance
      let below ← do
        match ← peekChar with
        | some '+' => advance; pure false
        | some '-' => advance; pure true
        | _ => pure false
      let found ← someDigits atEnd
      pure (some (below, found))
    | _ => pure none
  return { negative, whole, fraction, exponent }

/-- The value of a number: an integer of 64 bits, or the bits of a double. -/
inductive Value where
  | natural (n : Nat)
  /-- Below zero by `n`, which is not zero. -/
  | below (n : Nat)
  | double (bits : Nat)
  deriving DecidableEq

def digitsValue (ds : List Char) : Nat := ds.foldl (fun n d => n * 10 + (d.toNat - 48)) 0

/-- Adds digits as long as the result fits in 64 bits, and gives the digits that are left. -/
def absorb (significand : Nat) : List Char → Nat × List Char
  | [] => (significand, [])
  | d :: rest =>
    let next := significand * 10 + (d.toNat - 48)
    if next < UInt64.size then absorb next rest else (significand, d :: rest)

/-- The double that a number stands for, if it is not too large. Only the digits that fit in 64 bits
count; further digits before the point are places, and further digits after it are dropped. -/
def Numeral.double? (n : Numeral) : Option Nat :=
  let (whole, places) := absorb 0 n.whole
  let fraction := n.fraction.getD []
  let (significand, dropped) := absorb whole fraction
  let power : Int := match n.exponent with
    | none => 0
    | some (false, ds) => digitsValue ds
    | some (true, ds) => -(digitsValue ds : Int)
  (Number.scale significand (power + places.length - (fraction.length - dropped.length : Nat))).map
    (Number.Format.double.signed n.negative)

/-- A number without point and exponent is an integer if it fits. A negative zero is a double. -/
def Numeral.value? (n : Numeral) : Option Value :=
  let magnitude := digitsValue n.whole
  if n.fraction.isNone && n.exponent.isNone && magnitude < UInt64.size then
    if !n.negative then some (.natural magnitude)
    else if magnitude = 0 || UInt64.size / 2 < magnitude then n.double?.map .double
    else some (.below magnitude)
  else n.double?.map .double

/-- A number that is looked at; one too large for a double is malformed. -/
def number (negative : Bool) : Reader Value := do
  match (← numeral .truncated negative).value? with
  | some value => return value
  | none => fail .malformed

/-- Reads past the start of a value that is not what is asked for: it has to be well-formed as far as
it is looked at, and then it is unfit. -/
def refuse {α : Type} (next : Char) : Reader α := do
  if next = 'n' then advance *> word ['u', 'l', 'l']
  else if next = 't' then advance *> word ['r', 'u', 'e']
  else if next = 'f' then advance *> word ['a', 'l', 's', 'e']
  else if next = '-' then do advance; let _ ← number true
  else if next.isDigit then do let _ ← number false
  else if next = '"' then do advance; let _ ← textBody
  else if next = '[' || next = '\x7b' then pure ()
  else fail .malformed
  fail .unfit

inductive Frame where
  | array | object
  deriving DecidableEq

def Frame.close : Frame → Char
  | .array => ']'
  | .object => '\x7d'

/-- The key and colon before a member that nobody looks at. -/
def skipKey : Reader Unit := do
  expect '"'
  skipTextBody
  expect ':'

/-- Where skipping stands: before a value, after one, or at the start of an array or object. -/
inductive SkipState where
  | value | done | opened
  deriving DecidableEq

/-- Skips to the end of the outermost value. Every step but the last takes a character or is followed
by one that does, so twice the length of the text is enough fuel. -/
def skipWithin : Nat → List Frame → SkipState → Reader Unit
  | 0, _, _ => fail .malformed
  | _ + 1, [], .done => pure ()
  | fuel + 1, frames, .value => do
    match ← peek with
    | none => fail .truncated
    | some c =>
      if c = '[' then advance *> skipWithin fuel (.array :: frames) .opened
      else if c = '\x7b' then advance *> skipWithin fuel (.object :: frames) .opened
      else do
        if c = 'n' then advance *> word ['u', 'l', 'l']
        else if c = 't' then advance *> word ['r', 'u', 'e']
        else if c = 'f' then advance *> word ['a', 'l', 's', 'e']
        else if c = '-' then do advance; let _ ← numeral .malformed true
        else if c.isDigit then do let _ ← numeral .malformed false
        else if c = '"' then advance *> skipTextBody
        else fail .malformed
        skipWithin fuel frames .done
  | fuel + 1, frame :: frames, state => do
    match ← peek with
    | none => fail .truncated
    | some c =>
      if c = frame.close then advance *> skipWithin fuel frames .done
      else do
        if state = .done then
          if c = ',' then advance else fail .malformed
        if frame = .object then skipKey
        skipWithin fuel (frame :: frames) .value
  | _ + 1, [], .opened => fail .malformed

/-- Skips a value that nobody looks at, to any depth. -/
def skip : Reader Unit := do
  let rest ← get
  skipWithin (2 * rest.length + 2) [] .value

end EffectLink.Json
