import EffectLink.Number.Binary

namespace EffectLink.Number

/-- A magnitude with the reals that round to it, all over one denominator: from `low` to `high`, the
ends included if `closed`. -/
structure Neighbourhood where
  low : Nat
  value : Nat
  high : Nat
  den : Nat
  closed : Bool

/-- Half of the way to the next magnitude on both sides; below a power of two the gap is half as
wide. -/
def Format.neighbourhood (f : Format) (pattern : Nat) : Neighbourhood :=
  let m := f.significand pattern
  let gap := if pattern % f.leadingBit = 0 && f.leadingBit ≤ pattern then 1 else 2
  let unit := scaled 1 (f.exponent pattern - 2)
  ⟨(4 * m - gap) * unit.1, 4 * m * unit.1, (4 * m + 2) * unit.1, unit.2, m % 2 == 0⟩

/-- The number `digits * 10 ^ power`. -/
structure Decimal where
  digits : Nat
  power : Int

/-- The decimal as a fraction, multiplied by `den`. -/
def Decimal.over (d : Decimal) (den : Nat) : Nat × Nat :=
  if 0 ≤ d.power then (d.digits * Nat.pow 10 d.power.toNat * den, 1)
  else (d.digits * den, Nat.pow 10 (-d.power).toNat)

def Neighbourhood.contains (n : Neighbourhood) (d : Decimal) : Bool :=
  let x := d.over n.den
  if n.closed then n.low * x.2 ≤ x.1 && x.1 ≤ n.high * x.2
  else n.low * x.2 < x.1 && x.1 < n.high * x.2

/-- Least `t` from `start` on with `den ≤ value * 10 ^ t`, looking no further than `steps`. -/
def leadingZeros (value den : Nat) : Nat → Nat → Nat
  | 0, t => t
  | steps + 1, t => if den ≤ value * Nat.pow 10 t then t else leadingZeros value den steps (t + 1)

/-- The power of ten of the first significant digit. -/
def Neighbourhood.leadPower (n : Neighbourhood) : Int :=
  if n.den ≤ n.value then ((Nat.toDigits 10 (n.value / n.den)).length : Int) - 1
  else -(leadingZeros n.value n.den 400 1 : Int)

/-- The value's two neighbours on the grid of multiples of `10 ^ power`: the one that reads back, or
the nearer of the two if both do. -/
def Neighbourhood.onGrid (n : Neighbourhood) (power : Int) : Option Decimal :=
  let unit := (Decimal.mk 1 power).over n.den
  let below : Decimal := ⟨n.value * unit.2 / unit.1, power⟩
  let above : Decimal := ⟨below.digits + 1, power⟩
  match n.contains below, n.contains above with
  | true, true =>
    if 2 * (n.value * unit.2 % unit.1) < unit.1 then some below else some above
  | true, false => some below
  | false, true => some above
  | false, false => none

/-- The first grid with a hit, from one significant digit on. -/
def Format.shortest (f : Format) (pattern : Nat) : Decimal :=
  let n := f.neighbourhood pattern
  ((List.range 17).findSome? fun more : Nat => n.onGrid (n.leadPower - more)).getD ⟨0, 0⟩

/-- Positional text: zeros fill the places that have no digit, and a fraction does not end in zero. -/
def Decimal.positional (d : Decimal) : List Char :=
  let digits := Nat.toDigits 10 d.digits
  if 0 ≤ d.power then digits ++ List.replicate d.power.toNat '0'
  else
    let places := (-d.power).toNat
    let padded := List.replicate (places + 1 - digits.length) '0' ++ digits
    let fraction := ((padded.drop (padded.length - places)).reverse.dropWhile (· == '0')).reverse
    let whole := padded.take (padded.length - places)
    if fraction.isEmpty then whole else whole ++ '.' :: fraction

/-- Text of the number with the given bits; a zero keeps its sign. -/
def Format.text (f : Format) (pattern : Nat) : String :=
  let m := f.magnitude pattern
  let sign := if f.isNegative pattern then ['-'] else []
  String.ofList <|
    if f.infinity < m then ['N', 'a', 'N']
    else if m = f.infinity then sign ++ ['i', 'n', 'f']
    else if m = 0 then sign ++ ['0']
    else sign ++ (f.shortest m).positional

end EffectLink.Number
