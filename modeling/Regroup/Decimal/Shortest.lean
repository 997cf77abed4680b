import Regroup.Decimal.Binary

/-!
# Shortest decimal numbers

Every binary fraction stands for an interval of real numbers: those that round to it. The decimal
number to write for it is one with the fewest digits in that interval, and of those the nearest.

## Main definitions

* `Regroup.Binary.roundsTo` — whether a decimal number lies in the interval.
* `Regroup.Binary.shortest` — the decimal number to write.

## Design

The decimal numbers with `n` digits lie on a grid. If a point of the grid lies in the interval, so
does one of the two grid neighbours of the fraction itself, hence only those two are tried, for one
digit, two digits and so on. Seventeen digits always suffice.
-/

namespace Regroup

namespace Binary

/-- Whether `t · 2^s` is less than a decimal number. -/
def isBelow (t : Nat) (s : Int) (d : Decimal) : Bool :=
  t * powUp 2 s * powDown 10 d.exponent < d.digits * powUp 10 d.exponent * powDown 2 s

/-- Whether `t · 2^s` is greater than a decimal number. -/
def isAbove (t : Nat) (s : Int) (d : Decimal) : Bool :=
  d.digits * powUp 10 d.exponent * powDown 2 s < t * powUp 2 s * powDown 10 d.exponent

/-- Whether a decimal number rounds to a binary fraction: it lies between the midpoints to the two
neighbours, and an even significand has the midpoints too. Just above a power of two the lower
neighbour is only half as far away. -/
def roundsTo (b : Binary) (d : Decimal) : Bool :=
  let low := 4 * b.significand -
    (if b.significand = Nat.pow 2 52 ∧ minExponent < b.exponent then 1 else 2)
  let high := 4 * b.significand + 2
  if b.significand % 2 = 0 then
    !isAbove low (b.exponent - 2) d && !isBelow high (b.exponent - 2) d
  else isBelow low (b.exponent - 2) d && isAbove high (b.exponent - 2) d

/-- The least `k` with a binary fraction below `10^k`: the binary logarithm gives it to within a few
steps. -/
def scale (b : Binary) : Int :=
  let estimate : Int := ((Nat.log2 b.significand : Int) + b.exponent) * 30103 / 100000
  ([estimate, estimate + 1, estimate + 2].find? fun k =>
    isBelow b.significand b.exponent ⟨1, k⟩).getD
    (estimate + 3)

/-- Of the two neighbours of a binary fraction among the multiples of `10^j`, the one that rounds to
it; of two the nearer, and the greater if they are equally near. -/
def onGrid? (b : Binary) (j : Int) : Option Decimal :=
  let num := b.significand * powUp 2 b.exponent * powDown 10 j
  let den := powDown 2 b.exponent * powUp 10 j
  let lower : Decimal := ⟨num / den, j⟩
  let upper : Decimal := ⟨num / den + 1, j⟩
  let ranked := if 2 * (num % den) < den then [lower, upper] else [upper, lower]
  ranked.find? b.roundsTo

/-- The shortest decimal number that rounds to a binary fraction. The only number that is found with
a zero at its end is ten. -/
def shortest (b : Binary) : Decimal :=
  if b.significand = 0 then ⟨0, 0⟩
  else
    match (List.range 17).findSome? fun n => b.onGrid? (b.scale - 1 - (n : Nat)) with
    | some d => if d.digits % 10 = 0 then ⟨d.digits / 10, d.exponent + 1⟩ else d
    | none => ⟨b.significand * powUp 2 b.exponent * powDown 5 b.exponent, min b.exponent 0⟩

example : (⟨7205759403792794, -56⟩ : Binary).shortest = ⟨1, -1⟩ := by decide +kernel
example : (⟨1, minExponent⟩ : Binary).shortest = ⟨5, -324⟩ := by decide +kernel

end Binary

end Regroup
