import Regroup.Time.Duration

/-!
# Adding durations up

The text of a duration tells it in parts whose lengths add up. What the parts are is up to the
library that reads the text; this module is about the sum.

All additions are checked to fit 64 bits. The nanoseconds are carried into the seconds only when
they exceed a second: an exact second is left for the duration to carry when it is put together, and
that last carry is not checked. Libraries differ in when they put it together: once, behind all
parts, or anew behind each of them.

## Main definitions

* `Regroup.Duration.Fault` — why a text gives no duration.
* `Regroup.Duration.Span`, `Regroup.Duration.Total` — what is added, and a sum of it.
* `Regroup.Duration.Total.add`, `Regroup.Duration.Total.build` — adds, and puts the duration
  together.
* `Regroup.Duration.Parts`, `Regroup.Duration.Parts.total` — the parts of a text, and their sum.
* `Regroup.Duration.AddsUp` — that a reader of durations adds up the parts of a text.
-/

namespace Regroup.Duration

/-- Why a text gives no duration. -/
inductive Fault where
  /-- The text does not follow the grammar, or one of its numbers does not fit 64 bits. -/
  | unreadable
  /-- The last carry into the seconds leaves the range of durations. -/
  | overflow
  deriving DecidableEq, Repr

/-! ## Sums -/

/-- What is added to a sum: seconds, and any number of nanoseconds. -/
structure Span where
  /-- The seconds. -/
  seconds : Nat
  /-- The nanoseconds. -/
  nanos : Nat
  deriving DecidableEq, Repr

/-- A sum: the seconds fit 64 bits, and nothing beyond a second is left in the nanoseconds. -/
structure Total where
  /-- The seconds. -/
  seconds : Nat
  /-- The nanoseconds, an exact second at most. -/
  nanos : Nat
  /-- The seconds fit. -/
  seconds_lt : seconds < UInt64.size
  /-- The nanoseconds have been carried. -/
  nanos_le : nanos ≤ nanosPerSecond
  deriving DecidableEq

/-- The sum of a duration alone. -/
def total (d : Duration) : Total :=
  ⟨d.seconds.toNat, d.nanos.val, d.seconds.toNat_lt, Nat.le_of_lt d.nanos.isLt⟩

/-- A number that fits 64 bits. -/
def word (n : Nat) : Except Fault Nat :=
  if n < UInt64.size then .ok n else .error .unreadable

/-- The seconds that are carried out of nanoseconds, when these exceed one. -/
def carried (nanos : Nat) : Nat := if nanosPerSecond < nanos then nanos / nanosPerSecond else 0

/-- The nanoseconds that are left behind the carry. -/
def kept (nanos : Nat) : Nat := if nanosPerSecond < nanos then nanos % nanosPerSecond else nanos

theorem kept_le (nanos : Nat) : kept nanos ≤ nanosPerSecond := by
  unfold kept
  split
  · exact Nat.le_of_lt (Nat.mod_lt _ (by decide))
  · omega

namespace Total

/-- Nothing. -/
def zero : Total := ⟨0, 0, by decide, by decide⟩

/-- Adds a span in checked arithmetic. -/
def add (t : Total) (s : Span) : Except Fault Total := do
  let nanos ← word (t.nanos + s.nanos)
  let seconds ← word (s.seconds + carried nanos)
  if h : t.seconds + seconds < UInt64.size then
    .ok ⟨t.seconds + seconds, kept nanos, h, kept_le nanos⟩
  else .error .unreadable

/-- The duration of a sum, which carries an exact second. -/
def build (t : Total) : Except Fault Duration :=
  match ofParts? t.seconds t.nanos with
  | some d => .ok d
  | none => .error .overflow

/-- Adds a span, and puts the duration together at once if it is built anew behind each part. -/
def plus (rebuilds : Bool) (t : Total) (s : Span) : Except Fault Total := do
  let sum ← t.add s
  if rebuilds then return (← sum.build).total else return sum

end Total

/-! ## Parts -/

/-- The parts of a text, as far as it can be read. -/
structure Parts where
  /-- What the parts come to, in order. -/
  spans : List Span
  /-- Whether that is the whole text: nothing behind it is unreadable. -/
  isWhole : Bool
  deriving DecidableEq, Repr

namespace Parts

/-- No parts. -/
def empty : Parts := ⟨[], true⟩

/-- A text that cannot be read from its start. -/
def broken : Parts := ⟨[], false⟩

/-- A single span, if there is one. -/
def ofSpan? : Option Span → Parts
  | some s => ⟨[s], true⟩
  | none => broken

/-- The parts of a text in front of those of the text behind it. -/
def andThen (p q : Parts) : Parts := if p.isWhole then ⟨p.spans ++ q.spans, q.isWhole⟩ else p

/-- The duration that the parts add up to. -/
def total (rebuilds : Bool) (p : Parts) : Except Fault Duration := do
  let sum ← p.spans.foldlM (Total.plus rebuilds) .zero
  if p.isWhole then sum.build else .error .unreadable

end Parts

/-- A reader of durations adds up the parts that `scan` finds in a text. -/
def AddsUp (rebuilds : Bool) (read : String → Except Fault Duration) (scan : String → Parts) :
    Prop :=
  ∀ text, read text = (scan text).total rebuilds

end Regroup.Duration
