import Regroup.Collector.Expiry

/-!
# Running a collector

The calls of a collector in a world of channels: each changes the store, plans its sends, makes
them, and answers.

## Main definitions

* `Regroup.World` — what a collector holds, and the state of the channels.
* `Regroup.Call`, `Regroup.Answer` — the calls and what they answer.
* `Regroup.Collector.perform` — one call.
* `Regroup.Collector.runAll` — a list of calls.
-/

namespace Regroup

/-- What a collector holds together with the state of the channels around it. -/
structure World (σ : Type) where
  /-- What the collector holds. -/
  holdings : Holdings
  /-- The state of the channels. -/
  channels : σ

/-- A call of a collector. -/
inductive Call where
  /-- Hands in a message at a moment. -/
  | handle (m : Message) (now : Instant)
  /-- Closes the group of a key. -/
  | close (key : Key)
  /-- Closes every group that has reached the age at a moment. -/
  | expire (now : Instant)

/-- What a call answers. -/
inductive Answer where
  /-- The call is done, or has failed. -/
  | done (failure : Option Failure)
  /-- So many groups have been closed without a failed send. -/
  | expired (count : Nat)
  deriving DecidableEq

/-- What has come of a call. -/
structure Performed (σ : Type) where
  /-- The world behind the call. -/
  world : World σ
  /-- The sends that were made, in order. -/
  delivered : List Send
  /-- The answer. -/
  answer : Answer
  /-- The group that the call has opened. -/
  opened : Option Group

variable {σ : Type}

/-- Carries out several plans one after the other, whether they fail or not: the state of the
channels behind them, the sends that were made, and the number of plans without a failure. -/
def deliverEach (t : Transport σ) (state : σ) : List (List Send) → σ × List Send × Nat
  | [] => (state, [], 0)
  | plan :: plans =>
    let first := deliver t state plan
    let (state, delivered, count) := deliverEach t first.state plans
    (state, first.delivered ++ delivered, if first.failure.isNone then count + 1 else count)

namespace Collector

variable (c : Collector) (t : Transport σ)

/-- Performs a call. -/
def perform (w : World σ) : Call → Performed σ
  | .handle m now =>
    let (handled, issued) := c.handle w.holdings now m
    let delivery := deliver t w.channels handled.plan
    ⟨⟨⟨handled.store, issued⟩, delivery.state⟩, delivery.delivered,
      .done (handled.verdict.failure?.or (delivery.failure.map .dispatch)), handled.opened⟩
  | .close key =>
    let (store, plan) := c.close w.holdings.store key
    let delivery := deliver t w.channels plan
    ⟨⟨{ w.holdings with store }, delivery.state⟩, delivery.delivered,
      .done (delivery.failure.map .dispatch), none⟩
  | .expire now =>
    let (store, plans) := c.expire now w.holdings.store
    let (channels, delivered, count) := deliverEach t w.channels plans
    ⟨⟨{ w.holdings with store }, channels⟩, delivered, .expired count, none⟩

/-- Performs calls one after the other, each in the world that the one before has left. Calls that
find their channels changed by others come to the same as those of such a run, with other channels
(`Collector.exists_scripted_run`). -/
def runAll (w : World σ) : List Call → World σ × List (Performed σ)
  | [] => (w, [])
  | call :: calls =>
    let first := c.perform t w call
    let (w, later) := runAll first.world calls
    (w, first :: later)

/-- The collector with its settings and channels as a record. -/
def toText (s : Store) (hasOutput : Bool) : String :=
  Text.record "CorrelatingHandler"
    [("config", c.settings.toText), ("groups", toString s.size),
      ("has_output_channel", Text.truth hasOutput), ("has_discard_channel", Text.truth c.discards)]
    true

end Collector

end Regroup
