/-! Binary floating-point numbers as bit patterns. Patterns are ordered as the magnitudes are, so a
carry out of the significand moves into the exponent field by itself. -/

namespace EffectLink.Number

/-- A format with `precision` significant bits, the leading one not stored. -/
structure Format where
  precision : Nat
  exponentBits : Nat

def Format.single : Format := ⟨24, 8⟩

def Format.double : Format := ⟨53, 11⟩

namespace Format

/-- Exponent of the unit in the last place of the smallest magnitudes. -/
def leastExponent (f : Format) : Int := 3 - (1 <<< (f.exponentBits - 1) : Nat) - f.precision

/-- Number of stored significand bits. -/
def storedBits (f : Format) : Nat := f.precision - 1

/-- The bit that is not stored, which is also the unit of the exponent field. -/
def leadingBit (f : Format) : Nat := 1 <<< f.storedBits

/-- Pattern of the infinite magnitude; every larger pattern is no number. -/
def infinity (f : Format) : Nat := ((1 <<< f.exponentBits) - 1) * f.leadingBit

/-- The sign bit. -/
def signBit (f : Format) : Nat := f.leadingBit <<< f.exponentBits

def isNegative (f : Format) (pattern : Nat) : Bool := f.signBit ≤ pattern

def magnitude (f : Format) (pattern : Nat) : Nat := pattern % f.signBit

def significand (f : Format) (pattern : Nat) : Nat :=
  let stored := pattern % f.leadingBit
  if pattern < f.leadingBit then stored else stored + f.leadingBit

def exponent (f : Format) (pattern : Nat) : Int :=
  f.leastExponent + ((pattern / f.leadingBit - 1 : Nat) : Int)

end Format

/-- Quotient rounded to the nearest natural number, to the even one on a tie. -/
def nearestEven (num den : Nat) : Nat :=
  let q := num / den
  let r := num % den
  if 2 * r < den then q
  else if den < 2 * r then q + 1
  else if q % 2 = 0 then q else q + 1

/-- Greatest `k` with `2 ^ k ≤ num / den`, for positive arguments. -/
def quotientLog (num den : Nat) : Int :=
  let k : Int := (num.log2 : Int) - (den.log2 : Int)
  let below := if 0 ≤ k then num < den <<< k.toNat else num <<< (-k).toNat < den
  if below then k - 1 else k

/-- The number `n * 2 ^ e` as a fraction. -/
def scaled (n : Nat) (e : Int) : Nat × Nat :=
  if 0 ≤ e then (n <<< e.toNat, 1) else (n, 1 <<< (-e).toNat)

namespace Format

/-- Pattern of the magnitude nearest to `num / den`. -/
def nearest (f : Format) (num den : Nat) : Nat :=
  if num = 0 then 0 else
    let unit := max f.leastExponent (quotientLog num den - f.storedBits)
    let rounded :=
      if 0 ≤ unit then nearestEven num (den <<< unit.toNat)
      else nearestEven (num <<< (-unit).toNat) den
    min f.infinity ((unit - f.leastExponent).toNat * f.leadingBit + rounded)

/-- The magnitude of a finite pattern as a fraction. -/
def fraction (f : Format) (pattern : Nat) : Nat × Nat :=
  scaled (f.significand pattern) (f.exponent pattern)

def product (f : Format) (a b : Nat) : Nat :=
  let x := f.fraction a
  let y := f.fraction b
  f.nearest (x.1 * y.1) (x.2 * y.2)

def quotient (f : Format) (a b : Nat) : Nat :=
  let x := f.fraction a
  let y := f.fraction b
  f.nearest (x.1 * y.2) (x.2 * y.1)

/-- Sets the sign of a magnitude. -/
def signed (f : Format) (negative : Bool) (pattern : Nat) : Nat :=
  if negative then pattern + f.signBit else pattern

/-- Rounds a finite magnitude of format `f` to format `g`. -/
def convert (f g : Format) (pattern : Nat) : Nat :=
  let x := f.fraction pattern
  g.nearest x.1 x.2

end Format

/-- The largest power of ten in double format. -/
def greatestPower : Nat := 308

/-- The double nearest to `10 ^ power`. -/
def tenTo (power : Nat) : Nat := Format.double.nearest (Nat.pow 10 power) 1

/-- Divides by `10 ^ power`, at most `10 ^ greatestPower` at a time. -/
def scaleDown (pattern power : Nat) : Nat :=
  if power ≤ greatestPower then Format.double.quotient pattern (tenTo power)
  else if pattern = 0 then 0
  else scaleDown (Format.double.quotient pattern (tenTo greatestPower)) (power - greatestPower)
termination_by power
decreasing_by simp_all [greatestPower]; omega

/-- The magnitude of the decimal `digits * 10 ^ power`, unless it is too large for a double. Each step
rounds, so that beyond digits of `2 ^ 53` and powers of 22 it can be a neighbour of the nearest double. -/
def scale (digits : Nat) (power : Int) : Option Nat :=
  let start := Format.double.nearest digits 1
  if power < 0 then some (scaleDown start (-power).toNat)
  else if power.toNat ≤ greatestPower then
    let result := Format.double.product start (tenTo power.toNat)
    if result < Format.double.infinity then some result else none
  else if start = 0 then some 0 else none

end EffectLink.Number
