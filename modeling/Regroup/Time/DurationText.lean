import Regroup.Time.Duration

/-!
# Durations as text

Two ways to write a duration. For people: the largest unit that counts at least one, then the
exact fraction of it, such as `1.5ms`. For exchange: seconds with nine decimal places.

## Main definitions

* `Regroup.Duration.toText` — the form for people.
* `Regroup.Duration.toDecimal`, `Regroup.Duration.ofDecimal?` — the form for exchange.
-/

namespace Regroup.Duration

/-- The decimal digits of a number, with zeros in front up to a width. -/
def paddedDigits (width n : Nat) : List Char :=
  let digits := Nat.toDigits 10 n
  List.replicate (width - digits.length) '0' ++ digits

/-- A number with a fraction of `width` decimal places, whose closing zeros are left out. -/
def decimalText (whole fraction width : Nat) : String :=
  let places := ((paddedDigits width fraction).reverse.dropWhile (· == '0')).reverse
  String.ofList (Nat.toDigits 10 whole ++ (if places.isEmpty then [] else '.' :: places))

/-- The largest of the units `s`, `ms`, `µs` and `ns` of which the duration holds at least one,
with the exact fraction; `0ns` for no time at all. -/
def toText (d : Duration) : String :=
  if 0 < d.seconds then
    decimalText d.seconds.toNat d.nanos.val 9 ++ "s"
  else if 1000000 ≤ d.nanos.val then
    decimalText (d.nanos.val / 1000000) (d.nanos.val % 1000000) 6 ++ "ms"
  else if 1000 ≤ d.nanos.val then
    decimalText (d.nanos.val / 1000) (d.nanos.val % 1000) 3 ++ "µs"
  else
    decimalText d.nanos.val 0 0 ++ "ns"

/-- The seconds with nine decimal places. -/
def toDecimal (d : Duration) : String :=
  String.ofList (Nat.toDigits 10 d.seconds.toNat ++ '.' :: paddedDigits 9 d.nanos.val)

/-- Reads seconds with nine decimal places. -/
def ofDecimal? (s : String) : Option Duration := do
  let cs := s.toList
  let whole := cs.takeWhile (· ≠ '.')
  let places := (cs.dropWhile (· ≠ '.')).drop 1
  guard (places.length == 9)
  let seconds ← (String.ofList whole).toNat?
  let nanos ← (String.ofList places).toNat?
  ofParts? seconds nanos

example : (⟨90, 250000000⟩ : Duration).toText = "90.25s" := by decide +kernel
example : (⟨0, 1500000⟩ : Duration).toText = "1.5ms" := by decide +kernel
example : zero.toText = "0ns" := by decide +kernel

end Regroup.Duration
