import Regroup.Delivery.Plan
import Regroup.Group.Objection
import Regroup.Policy.KeyRule
import Regroup.Policy.Processor
import Regroup.Policy.ReleaseRule
import Regroup.Settings.Basic
import Regroup.Store

/-!
# Collectors

A collector groups the messages that it is handed by their keys, and releases each group by its
policies. What a call does to the store is settled first, together with the list of messages that
are to be sent because of it; no send can change the store any more.

## Main definitions

* `Regroup.Collector` — policies and settings.
* `Regroup.Verdict` — what has become of a message that was handed in.
* `Regroup.Collector.handle` — a message is handed in.
* `Regroup.Collector.close` — a group is closed before it is ready.
-/

namespace Regroup

/-! ## Putting a collector together -/

/-- The policies and settings by which messages are grouped and released. -/
structure Collector where
  /-- What can be set. -/
  settings : Settings
  /-- Which group a message joins. -/
  keyRule : KeyRule
  /-- When a group is ready. -/
  releaseRule : ReleaseRule
  /-- What a ready group emits. -/
  processor : Processor
  /-- Whether there is a channel for discarded messages. -/
  discards : Bool

namespace Collector

/-- A collector that processes groups in a given way. Unless told otherwise it takes a group to be
ready when the whole sequence is there. -/
def processing (settings : Settings) (keyRule : KeyRule) (processor : Processor)
    (rule : Option ReleaseRule) (discards : Bool) : Collector :=
  ⟨settings, keyRule, rule.getD .wholeSequence, processor, discards⟩

/-- A collector that resequences. Unless told otherwise it takes a group to be ready when the
resequencer could release something. -/
def resequencing (settings : Settings) (keyRule : KeyRule) (rule : Option ReleaseRule)
    (discards : Bool) : Collector :=
  let r : Resequencer := ⟨settings.releasesRuns⟩
  ⟨settings, keyRule, rule.getD (.resequencing r), .resequence r, discards⟩

/-- A collector is fit for use if its settings are. -/
def validated (c : Collector) : Except SettingsFault Collector :=
  match c.settings.fault? with
  | some fault => .error fault
  | none => .ok c

end Collector

/-! ## State and results -/

/-- What a collector remembers between calls. -/
structure Holdings where
  /-- The groups. -/
  store : Store
  /-- The number of keys issued so far. -/
  issued : UInt64
  deriving DecidableEq

/-- A collector that has not been handed anything. -/
def Holdings.empty (capacity : Option Nat) : Holdings := ⟨Store.empty capacity, 0⟩

/-- What has become of a message that was handed in. -/
inductive Verdict where
  /-- It has no key. -/
  | keyless
  /-- Its sequence headers make no sense. -/
  | malformed
  /-- Its group does not take it. -/
  | objected (objection : Objection)
  /-- The store does not take it. -/
  | unstored (cause : StoreFailure)
  /-- It has joined its group. -/
  | accepted
  deriving DecidableEq

/-- The failure that a verdict is to the caller. Malformed messages and messages that meet an
objection are no failure. -/
def Verdict.failure? : Verdict → Option Failure
  | .keyless => some .missingKey
  | .unstored cause => some (.store cause)
  | .malformed | .objected _ | .accepted => none

/-- What a call that hands in a message comes to before anything is sent. -/
structure Handled where
  /-- What has become of the message. -/
  verdict : Verdict
  /-- The store behind the call. -/
  store : Store
  /-- What is to be sent, in order. -/
  plan : List Send
  /-- The group that the call has opened. -/
  opened : Option Group
  deriving DecidableEq

/-- The store without the buffered messages beyond the sequence length that a message is the first
to tell its group. -/
def Store.evict (s : Store) (g : Group) (m : Message) : Store :=
  match g.size, m.size with
  | none, some size => if (g.beyond size).isEmpty then s else s.replace (g.dropBeyond size)
  | _, _ => s

namespace Collector

variable (c : Collector)

/-! ## Release -/

/-- The sends that discard messages, none without a channel for them. -/
def discardPlan (ms : List Message) : List Send := if c.discards then ms.map Send.discard else []

/-- The store without a group that has emitted everything, or with a mark in its place where late
messages of its sequence are still to be expected and discarded. -/
def finish (s : Store) (g : Group) : Store :=
  if c.settings.discardsLate && g.isSequenced && !g.hasSeenWhole then s.replace g.complete
  else (s.remove g.key).2

/-- Processes a ready group. What a group still holds after it has emitted everything is
discarded. -/
def release (s : Store) (g : Group) : Store × List Send :=
  match c.processor.process g with
  | (.final messages, left) =>
    let (leftovers, left) := left.takeAll
    (c.finish s left, messages.map Send.release ++ c.discardPlan leftovers)
  | (.interim messages, left) => (s.replace left, messages.map Send.release)

/-! ## Handing in a message -/

/-- Adds a message that has met no objection to its group and releases the group if that makes it
ready. A group that was opened for a message that finds no room is removed again. -/
def join (s : Store) (now : Instant) (g : Group) (isNew : Bool) (m : Message) :
    Verdict × Store × List Send :=
  match (s.evict g m).add g.key m now with
  | (.error cause, s) => (.unstored cause, if isNew then (s.remove g.key).2 else s, [])
  | (.ok g, s) =>
    if c.releaseRule.isReady g then
      let (s, plan) := c.release s g
      (.accepted, s, plan)
    else (.accepted, s, [])

/-- What is to be sent because of an objection: late messages and those that tell another length
are discarded, the others are dropped. -/
def objectionPlan (m : Message) : Objection → List Send
  | .completed | .sizeConflict => c.discardPlan [m]
  | .outOfRange | .duplicate => []

/-- Hands in a well-formed message whose key is known. -/
def handleKeyed (s : Store) (now : Instant) (key : Key) (m : Message) : Handled :=
  let (g, isNew, s) := s.obtain key now
  let opened := if isNew then some g else none
  match g.objection? m c.settings.strictSize with
  | some objection => ⟨.objected objection, s, c.objectionPlan m objection, opened⟩
  | none =>
    let (verdict, s, plan) := c.join s now g isNew m
    ⟨verdict, s, plan, opened⟩

/-- Hands in a message: what comes of it, and the number of keys issued so far. The key is found
before the sequence headers are looked at. -/
def handle (h : Holdings) (now : Instant) (m : Message) : Handled × UInt64 :=
  match c.keyRule.resolve h.issued m with
  | (none, issued) => (⟨.keyless, h.store, [], none⟩, issued)
  | (some key, issued) =>
    if m.isWellFormed then (c.handleKeyed h.store now key m, issued)
    else (⟨.malformed, h.store, [], none⟩, issued)

/-! ## Closing a group -/

/-- Removes the group of a key before it is ready. What it holds is emitted or discarded, as the
settings say; a mark of a released group holds nothing. -/
def close (s : Store) (key : Key) : Store × List Send :=
  match s.remove key with
  | (none, s) => (s, [])
  | (some g, s) =>
    if g.isEmpty then (s, [])
    else if c.settings.sendsEarlyResults then
      let (messages, left) := c.processor.processEarly g
      (s, messages.map Send.release ++ c.discardPlan left.messages)
    else (s, c.discardPlan g.messages)

/-! ## Laws -/

/-- A closed group is gone, whatever is then sent. -/
theorem get?_close (s : Store) (key : Key) : (c.close s key).1.get? key = none := by
  have h := s.get?_remove key
  unfold close
  split
  · rename_i heq; simpa [heq] using h
  · rename_i heq
    rw [heq] at h
    split
    · exact h
    · split <;> exact h

/-- Without a channel for discarded messages nothing is discarded. -/
theorem discardPlan_of_not_discards (h : c.discards = false) (ms : List Message) :
    c.discardPlan ms = [] := by simp [discardPlan, h]

end Collector

end Regroup
