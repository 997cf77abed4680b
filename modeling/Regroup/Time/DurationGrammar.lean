import Regroup.Text.Blank
import Regroup.Time.DurationSum

/-!
# Reading durations

A reader of durations. The text of a duration is one or more parts such as `2h`, `30 min` or `1.5s`,
with or without blanks between them, whose lengths add up. A part is a number, perhaps with a
fraction, and the name of a unit; blanks inside the number are skipped. A zero on its own is no time
at all. A number or a part that does not fit 64 bits makes the text unreadable.

This is the reader that settings are read with when the program runs. What is proved of settings
holds with any reader that adds up the parts of a text.

## Main definitions

* `Regroup.Duration.TimeUnit`, `Regroup.Duration.unit?` — the units and their names.
* `Regroup.Duration.part` — what a part comes to.
* `Regroup.Duration.advance` — the reader, as an automaton over characters.
* `Regroup.Duration.scan`, `Regroup.Duration.read` — the parts of a text, and their sum.
-/

namespace Regroup.Duration

/-! ## Units -/

/-- What a fraction of a unit is counted in. -/
inductive Grain where
  /-- The unit is the smallest there is and has no fractions. -/
  | indivisible
  /-- Fractions are whole numbers of nanoseconds; the unit has so many. -/
  | nanos (perUnit : Nat)
  /-- Fractions are whole numbers of seconds; the unit has so many. -/
  | seconds (perUnit : Nat)
  deriving DecidableEq

/-- A unit of time: its length in seconds or in nanoseconds, the other being zero, and what its
fractions are counted in. -/
structure TimeUnit where
  /-- The seconds of a unit of a second or more. -/
  seconds : Nat
  /-- The nanoseconds of a unit below a second. -/
  nanos : Nat
  /-- What its fractions are counted in. -/
  grain : Grain
  deriving DecidableEq

/-- A unit shorter than a second. -/
def TimeUnit.subsecond (nanos : Nat) : TimeUnit := ⟨0, nanos, .nanos nanos⟩

/-- A unit of seconds or minutes, fine enough for fractions in nanoseconds. -/
def TimeUnit.fine (seconds : Nat) : TimeUnit := ⟨seconds, 0, .nanos (seconds * nanosPerSecond)⟩

/-- A unit of an hour or more, with fractions in whole seconds. -/
def TimeUnit.coarse (seconds : Nat) : TimeUnit := ⟨seconds, 0, .seconds seconds⟩

/-- The units with all their names. A month is a twelfth of a year of 365.25 days. -/
def unitNames : List (List String × TimeUnit) :=
  [(["nanos", "nsec", "ns"], ⟨0, 1, .indivisible⟩),
    (["usec", "us", "µs"], .subsecond 1000),
    (["millis", "msec", "ms"], .subsecond 1000000),
    (["seconds", "second", "secs", "sec", "s"], .fine 1),
    (["minutes", "minute", "min", "mins", "m"], .fine 60),
    (["hours", "hour", "hr", "hrs", "h"], .coarse 3600),
    (["days", "day", "d"], .coarse 86400),
    (["weeks", "week", "wk", "wks", "w"], .coarse 604800),
    (["months", "month", "M"], .coarse 2630016),
    (["years", "year", "yr", "yrs", "y"], .coarse 31557600)]

/-- The unit of a name. -/
def unit? (name : String) : Option TimeUnit :=
  (unitNames.find? (fun u => u.1.contains name)).map Prod.snd

/-! ## Parts -/

/-- A number, if it fits 64 bits. -/
def word? (n : Nat) : Option Nat := (word n).toOption

/-- A whole number of units. -/
def TimeUnit.times? (unit : TimeUnit) (whole : Nat) : Option Span := do
  return ⟨← word? (whole * unit.seconds), ← word? (whole * unit.nanos)⟩

/-- The digits behind a decimal point: `numerator / denominator`, the denominator a power of
ten. -/
structure Fraction where
  /-- The digits as a number. -/
  numerator : Nat
  /-- Ten to the number of digits. -/
  denominator : Nat
  deriving DecidableEq

/-- The part `f` of `perUnit`, which must come out whole. -/
def Fraction.of? (f : Fraction) (perUnit : Nat) : Option Nat := do
  let product ← word? (f.numerator * perUnit)
  if product % f.denominator = 0 then some (product / f.denominator) else none

/-- A fraction of a unit. -/
def TimeUnit.fraction? (unit : TimeUnit) (f : Fraction) : Option Span :=
  match unit.grain with
  | .indivisible => none
  | .nanos perUnit => (f.of? perUnit).map fun nanos => ⟨0, nanos⟩
  | .seconds perUnit => (f.of? perUnit).map fun seconds => ⟨seconds, 0⟩

/-- What a part comes to: `whole` units, and then a fraction of one. -/
def part (whole : Nat) (fraction : Option Fraction) (name : String) : Parts :=
  match unit? name with
  | none => .broken
  | some unit =>
    (Parts.ofSpan? (unit.times? whole)).andThen
      (fraction.elim .empty fun f => .ofSpan? (unit.fraction? f))

/-! ## The automaton -/

/-- Where the reader stands. -/
inductive Stage where
  /-- Before the first part. -/
  | opening
  /-- Behind a part that a blank has closed. -/
  | between
  /-- In the whole part of a number. -/
  | whole (n : Nat)
  /-- Behind the decimal point of a number; the denominator is one before the first digit. -/
  | fraction (n : Nat) (f : Fraction)
  /-- In the name of a unit, the letters read so far in reverse. -/
  | unit (n : Nat) (f : Option Fraction) (letters : List Char)

/-- The value of an ASCII digit. -/
def digit? (c : Char) : Option Nat :=
  if c.isDigit then some (c.toNat - '0'.toNat) else none

/-- Whether the character may stand in the name of a unit. -/
def isUnitLetter (c : Char) : Bool := c.isAlpha || c = 'µ'

/-- Reads one character, if it can be read: the part that it closes, and where the reader stands
then. -/
def advance (stage : Stage) (c : Char) : Option (Parts × Stage) :=
  match stage with
  | .opening | .between =>
    match digit? c with
    | some d => some (.empty, .whole d)
    | none => if Text.isBlank c then some (.empty, stage) else none
  | .whole n =>
    match digit? c with
    | some d => do return (.empty, .whole (← word? (n * 10 + d)))
    | none =>
      if Text.isBlank c then some (.empty, stage)
      else if isUnitLetter c then some (.empty, .unit n none [c])
      else if c = '.' then some (.empty, .fraction n ⟨0, 1⟩)
      else none
  | .fraction n f =>
    match digit? c with
    | some d => do
      let denominator ← word? (f.denominator * 10)
      let numerator ← word? (f.numerator * 10 + d)
      return (.empty, .fraction n ⟨numerator, denominator⟩)
    | none =>
      if Text.isBlank c then some (.empty, stage)
      else if isUnitLetter c && f.denominator ≠ 1 then some (.empty, .unit n (some f) [c])
      else none
  | .unit n f letters =>
    match digit? c with
    | some d => some (part n f (String.ofList letters.reverse), .whole d)
    | none =>
      if Text.isBlank c then some (part n f (String.ofList letters.reverse), .between)
      else if isUnitLetter c then some (.empty, .unit n f (c :: letters))
      else none

/-- The part that the end of the text closes. -/
def close : Stage → Parts
  | .between => .empty
  | .unit n f letters => part n f (String.ofList letters.reverse)
  | _ => .broken

/-- The parts of the text that is left. -/
def parts (stage : Stage) : List Char → Parts
  | [] => close stage
  | c :: text =>
    match advance stage c with
    | some (closed, stage) => closed.andThen (parts stage text)
    | none => .broken

/-- The parts of a text. A zero and nothing else needs no unit. -/
def scan (text : String) : Parts := if text = "0" then .empty else parts .opening text.toList

/-- The duration that a text stands for. -/
def read (rebuilds : Bool) (text : String) : Except Fault Duration := (scan text).total rebuilds

example : read true "1.5s 2ms" = .ok ⟨1, 502000000⟩ := rfl

end Regroup.Duration
