namespace EffectLink

abbrev Bytes := List UInt8

namespace Utf8

def encode (text : String) : Bytes := text.toUTF8.data.toList

def decode? (bytes : Bytes) : Option String := String.fromUTF8? ⟨bytes.toArray⟩

def replacement : Char := Char.ofNat 0xFFFD

/-- The allowed range of the second byte of a character, and how many bytes follow the second. -/
def leadRange (lead : UInt8) : Option (UInt8 × UInt8 × Nat) :=
  if 0xC2 ≤ lead && lead ≤ 0xDF then some (0x80, 0xBF, 0)
  else if lead = 0xE0 then some (0xA0, 0xBF, 1)
  else if lead = 0xED then some (0x80, 0x9F, 1)
  else if 0xE1 ≤ lead && lead ≤ 0xEF then some (0x80, 0xBF, 1)
  else if lead = 0xF0 then some (0x90, 0xBF, 2)
  else if lead = 0xF4 then some (0x80, 0x8F, 2)
  else if 0xF1 ≤ lead && lead ≤ 0xF3 then some (0x80, 0xBF, 2)
  else none

/-- A character whose bytes so far make `code`; `pending` counts the bytes still to come and the next
of them must lie between `low` and `high`. -/
structure Partial where
  code : Nat
  pending : Nat
  low : UInt8
  high : UInt8

/-- The state before `lead`: either the character it is by itself, or an unfinished one. -/
def start (lead : UInt8) : Char ⊕ Partial :=
  if lead < 0x80 then .inl (Char.ofNat lead.toNat)
  else match leadRange lead with
    | none => .inl replacement
    | some (low, high, more) =>
      .inr ⟨lead.toNat % (32 >>> more), more + 1, low, high⟩

/-- Reads on with an unfinished character at hand, if there is one. A byte that cannot continue it
ends it with a replacement character and is read afresh. -/
def lenientFrom : Option Partial → Bytes → List Char
  | none, [] => []
  | some _, [] => [replacement]
  | none, b :: rest =>
    match start b with
    | .inl c => c :: lenientFrom none rest
    | .inr unfinished => lenientFrom (some unfinished) rest
  | some u, b :: rest =>
    if u.low ≤ b && b ≤ u.high then
      let code := u.code * 64 + b.toNat % 64
      if u.pending ≤ 1 then Char.ofNat code :: lenientFrom none rest
      else lenientFrom (some ⟨code, u.pending - 1, 0x80, 0xBF⟩) rest
    else
      match start b with
      | .inl c => replacement :: c :: lenientFrom none rest
      | .inr unfinished => replacement :: lenientFrom (some unfinished) rest

def lenient (bytes : Bytes) : String := String.ofList (lenientFrom none bytes)

end Utf8

end EffectLink
