import Regroup.Collector.Basic

/-!
# Expiry

Groups that have reached the age set as timeout are closed, each on its own: what one of them sends
and whether that succeeds has no bearing on the others.

## Main definitions

* `Regroup.Collector.isExpired` — whether a group has reached the age.
* `Regroup.Collector.closeExpired` — closes the group of a key if it has.
* `Regroup.Collector.expireEach`, `Regroup.Collector.expire` — the groups of some keys, of all.
* `Regroup.Breakdown` — why a call breaks off half-way.
* `Regroup.Collector.agedAt` — the moment at which a group will have reached the age.
* `Regroup.Collector.expireDue` — the groups of keys that are thought to have reached the age.
-/

namespace Regroup

/-- Why a call breaks off half-way: not with a failure that it answers, but without an answer. -/
inductive Breakdown where
  /-- A moment is asked for that lies behind the last that the clock can tell. -/
  | overflow
  deriving DecidableEq

/-- The sentence for a call that breaks off. -/
def Breakdown.message : Breakdown → String
  | .overflow => "overflow when adding duration to instant"

namespace Collector

variable (c : Collector)

/-- Whether the timeout has passed since the group came into being; never without a timeout. -/
def isExpired (now : Instant) (g : Group) : Bool :=
  match c.settings.effectiveTimeout with
  | some timeout => decide (g.createdAt.after timeout ≤ now)
  | none => false

/-- Closes the group of a key if it has reached the age: the store behind it, and what is to be sent
then. A younger group under the same key is left alone. -/
def closeExpired (now : Instant) (s : Store) (key : Key) : Store × Option (List Send) :=
  match s.get? key with
  | some g =>
    if c.isExpired now g then
      let (s, plan) := c.close s key
      (s, some plan)
    else (s, none)
  | none => (s, none)

/-- Closes those of the keys' groups that have reached the age, in the order of the keys: the store
behind it, and for each closed group what is to be sent. -/
def expireEach (now : Instant) (s : Store) : List Key → Store × List (List Send)
  | [] => (s, [])
  | key :: keys =>
    let (s, plan) := c.closeExpired now s key
    let (s, plans) := expireEach now s keys
    (s, plan.toList ++ plans)

/-- Closes every group that has reached the age. Nothing is that old where the timeout reaches back
beyond the first moment of the clock. All groups are listed for it that came into being a timeout
ago or earlier, so the moment at which one of them has reached the age is never behind `now`. -/
def expire (now : Instant) (s : Store) : Store × List (List Send) :=
  match c.settings.effectiveTimeout.bind now.before? with
  | some cutoff => c.expireEach now s (s.keysUntil cutoff)
  | none => (s, [])

/-- The moment at which a group will have reached the age set as timeout, if there is a timeout. To
ask for it breaks off where the clock cannot tell it. -/
def agedAt (g : Group) : Except Breakdown (Option Instant) :=
  match c.settings.effectiveTimeout with
  | none => .ok none
  | some timeout =>
    (g.createdAt.after? timeout).elim (.error .overflow) fun moment => .ok (some moment)

/-- Whether there is a group under the key of which the clock cannot tell when it will have reached
the age. -/
def breaksAt (s : Store) (key : Key) : Bool :=
  match s.get? key with
  | some g => !(c.agedAt g).isOk
  | none => false

/-- Closes those of the keys' groups that have reached the age, in the order of the keys, up to the
first group of which the clock cannot tell when it will have: the store behind it, for each closed
group what is to be sent, and whether all keys have been looked at. -/
def expireDue (now : Instant) (s : Store) : List Key → Store × List (List Send) × Bool
  | [] => (s, [], true)
  | key :: keys =>
    if c.breaksAt s key then (s, [], false)
    else
      let (s, plan) := c.closeExpired now s key
      let (s, plans, whole) := expireDue now s keys
      (s, plan.toList ++ plans, whole)

/-- Without a timeout nothing expires. -/
theorem expire_of_effectiveTimeout_eq_none (h : c.settings.effectiveTimeout = none) (now : Instant)
    (s : Store) : c.expire now s = (s, []) := by
  simp [expire, h]

end Collector

end Regroup
