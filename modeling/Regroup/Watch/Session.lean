import Regroup.Collector.Run
import Regroup.Watch.Watcher

/-!
# Sessions

A collector in use: its calls one after the other, a clock that stamps the groups that they open,
and perhaps a watcher that closes old groups while the session rests.

The watcher works only while the session rests. A rest lasts for a given time or until few enough
groups are left; the clock then moves from one moment of work to the next. The timers that a watcher
waits with are those of its surroundings and go off at whole ticks.

## Main definitions

* `Regroup.Session` — a collector, its world, its clock and its watcher.
* `Regroup.Session.call` — performs a call and tells the watcher of a group that it opens, or breaks
  off.
* `Regroup.Session.watch`, `Regroup.Session.stopWatching` — attaches a watcher, stops it.
* `Regroup.Session.alarm` — when a timer goes off.
* `Regroup.Session.restFor`, `Regroup.Session.restUntil` — lets the watcher work.
-/

namespace Regroup

/-- The watcher of a session. -/
inductive Watching where
  /-- There has never been one. -/
  | never
  /-- There is one at work. -/
  | running (watcher : Watcher)
  /-- There is one that stops as soon as it runs: its collector is gone, or the clock cannot tell
  the moment of its first sweep. -/
  | stopping
  /-- There was one and it has stopped; no other takes its place. -/
  | stopped
  deriving DecidableEq

/-- A watcher at work is told of a deadline, if there is one to tell. -/
def Watching.tell (watching : Watching) (deadline : Option Deadline) : Watching :=
  match watching, deadline with
  | .running watcher, some d => .running (watcher.tell d)
  | watching, _ => watching

/-- Why no watcher can be attached. -/
inductive WatchFault where
  /-- Groups never grow old. -/
  | noTimeout
  /-- There is nothing that a watcher could run on. -/
  | noRuntime
  /-- There is or was a watcher. -/
  | alreadyAttached
  deriving DecidableEq, Repr

/-- The sentence for a watcher that cannot be attached. -/
def WatchFault.message : WatchFault → String
  | .noTimeout => "the handler has no timeout to reap groups with"
  | .noRuntime => "the reaper requires a tokio runtime"
  | .alreadyAttached => "a reaper is already attached to this handler"

/-- A collector in use. -/
structure Session (σ : Type) where
  /-- The collector. -/
  collector : Collector
  /-- The way in which its sends are made. -/
  transport : Transport σ
  /-- What it holds, and the channels around it. -/
  world : World σ
  /-- The moment that it is now. -/
  clock : Instant
  /-- The watcher. -/
  watching : Watching

namespace Session

variable {σ : Type} (s : Session σ)

/-- The groups held. -/
def store : Store := s.world.holdings.store

/-- What the watcher is to be told of a group that a call has opened. Nobody asks where there has
never been a watcher; where there was one it is still asked for. -/
def deadline (opened : Option Group) : Except Breakdown (Option Deadline) :=
  match s.watching, opened with
  | .never, _ | _, none => .ok none
  | _, some g => s.collector.deadline g

/-- The session after a call has stored a new group and has got no further. The key may have been
issued for it. -/
def brokenOff (g : Option Group) (issued : UInt64) : Session σ :=
  let store :=
    match g with
    | some g => (s.store.obtain g.key g.createdAt).2.2
    | none => s.store
  { s with world := { s.world with holdings := ⟨store, issued⟩ } }

/-- Performs a call. A watcher at work is told of the group that the call opens, as soon as that is
stored. Where the clock cannot tell the deadline of the group the call breaks off at that point. -/
def call (call : Call) : Except Breakdown Answer × Session σ :=
  let performed := s.collector.perform s.transport s.world call
  match s.deadline performed.opened with
  | .error breakdown =>
    (.error breakdown, s.brokenOff performed.opened performed.world.holdings.issued)
  | .ok deadline =>
    (.ok performed.answer,
      { s with world := performed.world, watching := s.watching.tell deadline })

/-- Attaches a watcher. The timeout is looked at first, then the runtime, then whether there has
been a watcher before. One that cannot wait for its first sweep is attached all the same. -/
def watch (hasRuntime : Bool) : Except WatchFault (Session σ) :=
  match s.collector.settings.effectiveTimeout with
  | none => .error .noTimeout
  | some timeout =>
    let interval := s.collector.settings.effectiveSweepInterval.getD timeout
    match hasRuntime, s.watching with
    | false, _ => .error .noRuntime
    | true, .never =>
      .ok { s with
        watching :=
          match Watcher.start s.clock interval with
          | some watcher => .running watcher
          | none => .stopping }
    | true, _ => .error .alreadyAttached

/-- Stops the watcher, if there is one. -/
def stopWatching : Session σ :=
  match s.watching with
  | .never => s
  | _ => { s with watching := .stopped }

/-- Gives the collector up. A watcher at work has nothing left to watch and stops at the next rest;
until then it does not count as stopped. -/
def abandon : Session σ :=
  match s.watching with
  | .running _ => { s with watching := .stopping }
  | _ => s

/-- Whether the watcher has stopped. -/
def hasStopped : Bool :=
  match s.watching with
  | .stopped => true
  | _ => false

/-- The watcher does what is due at a moment, which becomes the moment that it is now. It stops and
does nothing if it could not wait for the sweep after that. -/
def work (watcher : Watcher) (now : Instant) : Session σ :=
  match watcher.afterPass? now with
  | some later =>
    let (store, plans) := watcher.pass s.collector now s.store
    let (channels, _, _) := deliverEach s.transport s.world.channels plans
    { s with
      world := ⟨{ s.world.holdings with store }, channels⟩
      clock := now
      watching := .running later }
  | none => { s with clock := now, watching := .stopped }

/-- The time between two moments at which timers go off. -/
def tick : Duration := Duration.ofMillis 1

/-- The moment at which a timer goes off that is set for a moment. -/
def alarm (moment : Instant) : Instant :=
  ⟨(moment.nanos + (tick.toNanos - 1)) / tick.toNanos * tick.toNanos⟩

/-- Lets the watcher work, at most `rounds` times, until the next work lies behind `limit` or the
store is as wanted. -/
def rest (limit : Instant) (enough : Store → Bool) : Nat → Session σ → Session σ
  | 0, s => s
  | rounds + 1, s =>
    match s.watching with
    | .running watcher =>
      let watcher := watcher.receiveAll
      let wake := alarm watcher.wakeAt
      let moment := if s.clock ≤ wake then wake else s.clock
      if enough s.store || !decide (moment ≤ limit) then { s with watching := .running watcher }
      else rest limit enough rounds (s.work watcher moment)
    | _ => s

/-- How often a watcher may have work until a moment: every deadline can come once, and a sweep
follows another after the interval, though not within one tick. -/
def rounds (watcher : Watcher) (span : Duration) : Nat :=
  watcher.arriving.length + watcher.schedule.length +
    span.toNanos / max watcher.sweepInterval.toNanos tick.toNanos + 2

/-- Lets the watcher work for a time, though no longer than the clock can tell. -/
def restFor (span : Duration) : Session σ :=
  let limit := (s.clock.after? span).getD .last
  match s.watching with
  | .running watcher =>
    { rest limit (fun _ => false) (rounds watcher span) s with clock := limit }
  | .stopping => { s with clock := limit, watching := .stopped }
  | _ => { s with clock := limit }

/-- Lets the watcher work until at most `count` groups are left, though no longer than
`patience`. -/
def restUntil (count : Nat) (patience : Duration) : Session σ :=
  match s.watching with
  | .running watcher =>
    rest ((s.clock.after? patience).getD .last) (fun store => decide (store.size ≤ count))
      (rounds watcher patience) s
  | .stopping => { s with watching := .stopped }
  | _ => s

end Session

end Regroup
