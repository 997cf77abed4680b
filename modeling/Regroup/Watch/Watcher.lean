import Regroup.Collector.Expiry

/-!
# Watching for groups that grow old

A watcher is told of every group that a collector opens, and remembers when the group will have
reached its age. When such a moment has come it closes the group, if the group is still there and
as old as it was thought to be. From time to time it sweeps over all groups, which finds those that
it was never told of.

All moments are moments of a clock that has a last one. A watcher that would have to wait for a
sweep behind that moment cannot go on.

## Main definitions

* `Regroup.Deadline` — a key and the moment at which its group will be old enough.
* `Regroup.Watcher` — deadlines on their way and in the schedule, and the next sweep.
* `Regroup.Watcher.receive` — takes a deadline into the schedule.
* `Regroup.Watcher.pass` — closes what is due, and sweeps when it is time to.
* `Regroup.Watcher.afterPass?` — what the watcher then waits for.
-/

namespace Regroup

/-- The moment at which the group of a key will have reached its age. -/
structure Deadline where
  /-- The moment. -/
  moment : Instant
  /-- The key. -/
  key : Key
  deriving DecidableEq

/-- The deadlines that a watcher knows of, and the moment of its next sweep. -/
structure Watcher where
  /-- Deadlines that have been told and not yet been received, the first told in front. -/
  arriving : List Deadline
  /-- Deadlines by ascending moment. -/
  schedule : List Deadline
  /-- The moment of the next sweep. -/
  nextSweep : Instant
  /-- The time between two sweeps. -/
  sweepInterval : Duration
  deriving DecidableEq

/-- What a watcher is to be told of a group, if there is a timeout. It breaks off where the clock
cannot tell when the group will have reached the age. -/
def Collector.deadline (c : Collector) (g : Group) : Except Breakdown (Option Deadline) :=
  (c.agedAt g).map fun moment => moment.map (⟨·, g.key⟩)

/-- Puts a deadline behind those that are not later. -/
def Deadline.into (d : Deadline) : List Deadline → List Deadline
  | [] => [d]
  | other :: rest =>
    if other.moment ≤ d.moment then other :: d.into rest else d :: other :: rest

namespace Watcher

/-- A watcher that starts now and has not been told of anything, if the clock can tell the moment of
its first sweep. -/
def start (now : Instant) (sweepInterval : Duration) : Option Watcher :=
  (now.after? sweepInterval).map fun nextSweep => ⟨[], [], nextSweep, sweepInterval⟩

variable (w : Watcher)

/-- Tells the watcher of a deadline. -/
def tell (d : Deadline) : Watcher := { w with arriving := w.arriving ++ [d] }

/-- Receives the deadline that was told first. -/
def receive : Watcher :=
  match w.arriving with
  | [] => w
  | d :: rest => { w with arriving := rest, schedule := d.into w.schedule }

/-- Receives all deadlines that have been told. -/
def receiveAll : Watcher :=
  { w with
    arriving := []
    schedule := w.arriving.foldl (fun schedule d => d.into schedule) w.schedule }

/-- The moment at which there is something to do next. -/
def wakeAt : Instant :=
  match w.schedule with
  | [] => w.nextSweep
  | d :: _ => d.moment.earlier w.nextSweep

/-- The keys whose deadline has come, the earliest first. -/
def due (now : Instant) : List Key :=
  (w.schedule.filter fun d => decide (d.moment ≤ now)).map (·.key)

/-- The watcher without the deadlines that have come, and with the next sweep set anew if its moment
has come; none if the clock cannot tell the moment of that sweep. -/
def afterPass? (now : Instant) : Option Watcher :=
  (if w.nextSweep ≤ now then now.after? w.sweepInterval else some w.nextSweep).map fun nextSweep =>
    { w with schedule := w.schedule.filter fun d => !decide (d.moment ≤ now), nextSweep }

/-- Closes the groups whose deadline has come, and sweeps over all groups if the moment of a sweep
has come: the store behind it, and for each closed group what is to be sent. Where it breaks off at
one of the groups whose deadline has come, the others are passed over and there is no sweep. -/
def pass (c : Collector) (now : Instant) (s : Store) : Store × List (List Send) :=
  let (s, plans, whole) := c.expireDue now s (w.due now)
  let (s, swept) := if whole && decide (w.nextSweep ≤ now) then c.expire now s else (s, [])
  (s, plans ++ swept)

end Watcher

end Regroup
