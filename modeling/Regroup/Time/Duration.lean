/-!
# Durations

A duration is a whole number of seconds that fits 64 bits and a fraction of a second in
nanoseconds.

## Main definitions

* `Regroup.Duration` — seconds and nanoseconds.
* `Regroup.Duration.toNanos` — the length as one number.
* `Regroup.Duration.ofParts?` — carries whole seconds out of the nanoseconds, when they fit.
-/

namespace Regroup

/-- A length of time: seconds, and nanoseconds short of a second. -/
structure Duration where
  /-- The whole seconds. -/
  seconds : UInt64
  /-- The nanoseconds beyond the whole seconds. -/
  nanos : Fin 1000000000
  deriving DecidableEq, Inhabited

namespace Duration

/-- The number of nanoseconds in a second. -/
def nanosPerSecond : Nat := 1000000000

/-- No time at all. -/
def zero : Duration := ⟨0, 0⟩

/-- Whether the duration is no time at all. -/
def isZero (d : Duration) : Bool := d == zero

/-- The length in nanoseconds. -/
def toNanos (d : Duration) : Nat := d.seconds.toNat * nanosPerSecond + d.nanos.val

/-- The duration of `seconds` and any number of `nanos`, if its whole seconds fit 64 bits. -/
def ofParts? (seconds nanos : Nat) : Option Duration :=
  let whole := seconds + nanos / nanosPerSecond
  if whole < UInt64.size then
    some ⟨UInt64.ofNat whole, ⟨nanos % nanosPerSecond, Nat.mod_lt _ (by decide)⟩⟩
  else
    none

/-- The duration of a number of milliseconds that fits 64 bits. -/
def ofMillis (ms : UInt64) : Duration :=
  ⟨ms / 1000, ⟨ms.toNat % 1000 * 1000000, by omega⟩⟩

theorem isZero_iff (d : Duration) : d.isZero = true ↔ d.toNanos = 0 := by
  obtain ⟨s, n⟩ := d
  simp only [isZero, zero, toNanos, nanosPerSecond, beq_iff_eq, Duration.mk.injEq]
  constructor
  · rintro ⟨rfl, rfl⟩
    simp
  · intro h
    have hs : s.toNat = 0 := by omega
    have hn : n.val = 0 := by omega
    exact ⟨UInt64.toNat_inj.1 (by simpa using hs), Fin.ext (by simpa using hn)⟩

/-- The parts are put together without loss. -/
theorem toNanos_ofParts? {seconds nanos : Nat} {d : Duration}
    (h : ofParts? seconds nanos = some d) :
    d.toNanos = seconds * nanosPerSecond + nanos := by
  simp only [ofParts?] at h
  split at h
  · rename_i hs
    cases h
    simp only [toNanos, UInt64.toNat_ofNat_of_lt' hs]
    simp only [nanosPerSecond]
    omega
  · cases h

end Duration

end Regroup
