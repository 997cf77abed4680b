import Regroup.Time.Duration

/-!
# Instants

Moments on a clock that never runs backwards. The clock has a first moment, so that going back
from an instant can fail, and a last one, so that going on from an instant can fail as well. What
lies behind the last moment that it can tell are moments all the same, which say when something
would have grown old; but the clock never gets there, and nothing can be set for such a moment.

## Main definitions

* `Regroup.Instant` — nanoseconds since the first moment of the clock.
* `Regroup.Instant.last` — the last moment that the clock can tell.
* `Regroup.Instant.after` — a duration later, be it a moment that the clock can tell or not.
* `Regroup.Instant.after?`, `Regroup.Instant.before?` — a duration later, a duration earlier, on the
  clock.
-/

namespace Regroup

/-- A moment, counted in nanoseconds since the first moment that the clock can tell. -/
structure Instant where
  /-- The nanoseconds since the first moment of the clock. -/
  nanos : Nat
  deriving DecidableEq, Inhabited

namespace Instant

instance : LE Instant := ⟨fun a b => a.nanos ≤ b.nanos⟩

instance : LT Instant := ⟨fun a b => a.nanos < b.nanos⟩

instance (a b : Instant) : Decidable (a ≤ b) := inferInstanceAs (Decidable (a.nanos ≤ b.nanos))

instance (a b : Instant) : Decidable (a < b) := inferInstanceAs (Decidable (a.nanos < b.nanos))

/-- The last moment that the clock can tell: its seconds fit 64 bits. -/
def last : Instant := ⟨UInt64.size * Duration.nanosPerSecond - 1⟩

/-- The moment a duration later, be it one that the clock can tell or not. -/
def after (t : Instant) (d : Duration) : Instant := ⟨t.nanos + d.toNanos⟩

/-- The moment a duration later, unless it lies behind the last moment of the clock. -/
def after? (t : Instant) (d : Duration) : Option Instant :=
  if t.after d ≤ last then some (t.after d) else none

/-- The moment a duration earlier, unless it lies before the first moment of the clock. -/
def before? (t : Instant) (d : Duration) : Option Instant :=
  if d.toNanos ≤ t.nanos then some ⟨t.nanos - d.toNanos⟩ else none

/-- The earlier of two moments. -/
def earlier (a b : Instant) : Instant := if a ≤ b then a else b

theorem le_def (a b : Instant) : a ≤ b ↔ a.nanos ≤ b.nanos := Iff.rfl

theorem lt_def (a b : Instant) : a < b ↔ a.nanos < b.nanos := Iff.rfl

/-- The clock tells the moment a duration later exactly if that is one of its moments. -/
theorem after?_eq_some_iff {t moment : Instant} {d : Duration} :
    t.after? d = some moment ↔ moment = t.after d ∧ moment ≤ last := by
  unfold after?
  split
  · rename_i h
    rw [Option.some.injEq]
    exact ⟨fun he => ⟨he.symm, he ▸ h⟩, fun he => he.1.symm⟩
  · rename_i h
    simp only [reduceCtorEq, false_iff, not_and]
    rintro rfl
    exact h

/-- The clock does not tell the moment a duration later exactly if that lies behind its last. -/
theorem after?_eq_none_iff {t : Instant} {d : Duration} :
    t.after? d = none ↔ last < t.after d := by
  unfold after?
  simp only [lt_def, le_def]
  split <;> simp_all

/-- A moment is at or before the cutoff exactly when the duration has passed since. -/
theorem le_before?_iff {now cutoff created : Instant} {d : Duration}
    (h : now.before? d = some cutoff) : created ≤ cutoff ↔ created.after d ≤ now := by
  simp only [before?] at h
  split at h
  · rename_i hd
    cases h
    simp only [le_def, after]
    omega
  · cases h

/-- Where the cutoff lies before the clock, the duration has passed since no moment. -/
theorem not_after_le_of_before?_eq_none {now created : Instant} {d : Duration}
    (h : now.before? d = none) : ¬ created.after d ≤ now := by
  simp only [before?] at h
  split at h
  · cases h
  · simp only [le_def, after]
    omega

end Instant

end Regroup
