/-!
# Decimal numbers and binary fractions

A floating point number of 64 bits is `m · 2^q` with a significand `m` below `2^53`. This module
finds the one that is nearest to a decimal number, in exact arithmetic.

## Main definitions

* `Regroup.Decimal` — digits and a power of ten.
* `Regroup.Decimal.toPositional` — its digits with a point and without an exponent.
* `Regroup.Binary` — significand and exponent.
* `Regroup.Binary.nearest?` — the nearest to a decimal number, a tie going to the even significand.
-/

namespace Regroup

/-- The number `digits · 10^exponent`. -/
structure Decimal where
  /-- All digits as one number. -/
  digits : Nat
  /-- The power of ten. -/
  exponent : Int
  deriving DecidableEq, Repr

/-- The number `significand · 2^exponent`. -/
structure Binary where
  /-- The significand, below `2^53`. -/
  significand : Nat
  /-- The power of two, at least `-1074`. -/
  exponent : Int
  deriving DecidableEq, Repr

/-- A decimal number with a point, at least one digit on either side of it, and no exponent. -/
def Decimal.toPositional (d : Decimal) : String :=
  let digits := toString d.digits
  let places := (-d.exponent).toNat
  if places = 0 then digits ++ "".pushn '0' d.exponent.toNat ++ ".0"
  else
    let padded := ("".pushn '0' (places + 1 - digits.length) ++ digits).toList
    let whole := padded.length - places
    String.ofList (padded.take whole) ++ "." ++ String.ofList (padded.drop whole)

namespace Binary

/-- The factor that `b^e` puts into a numerator: one where `e` is negative. -/
def powUp (b : Nat) (e : Int) : Nat := Nat.pow b e.toNat

/-- The factor that `b^e` puts into a denominator: one where `e` is not negative. -/
def powDown (b : Nat) (e : Int) : Nat := Nat.pow b (-e).toNat

/-- A quotient rounded to the nearest whole number, a tie going to the even one. -/
def roundDiv (num den : Nat) : Nat :=
  let q := num / den
  let r := num % den
  if 2 * r < den then q
  else if den < 2 * r then q + 1
  else if q % 2 = 0 then q
  else q + 1

/-- The least exponent of all. -/
def minExponent : Int := -1074

/-- The greatest exponent of a full significand. -/
def maxExponent : Int := 971

/-- The nearest binary fraction to a positive quotient, of whatever exponent. The exponent is the
one that gives the quotient 53 binary digits, or the least of all. -/
def nearestQuotient (num den : Nat) : Binary :=
  let estimate : Int := (Nat.log2 num : Int) - Nat.log2 den - 53
  let isLarge := decide (Nat.pow 2 53 * (den * powUp 2 estimate) ≤ num * powDown 2 estimate)
  let exponent := max (if isLarge then estimate + 1 else estimate) minExponent
  let significand := roundDiv (num * powDown 2 exponent) (den * powUp 2 exponent)
  if significand = Nat.pow 2 53 then ⟨Nat.pow 2 52, exponent + 1⟩ else ⟨significand, exponent⟩

/-- The nearest binary fraction to a decimal number, unless that is too large for 64 bits. Numbers
far out of range are decided by their count of digits alone. -/
def nearest? (d : Decimal) : Option Binary :=
  let magnitude : Int := (toString d.digits).length + d.exponent
  if d.digits = 0 || magnitude < -330 then some ⟨0, minExponent⟩
  else if 310 < magnitude then none
  else
    let b := nearestQuotient (d.digits * powUp 10 d.exponent) (powDown 10 d.exponent)
    if maxExponent < b.exponent then none else some b

end Binary

end Regroup
