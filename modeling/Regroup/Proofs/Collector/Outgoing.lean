import Regroup.Proofs.Collector.Step

/-!
# What leaves the groups

A call takes messages out of groups. It releases some of them, and behind those it discards others.
Which ones these are is a matter of what is held before the call alone.

## Main definitions

* `Regroup.Outgoing` — messages that are released, and messages that are discarded behind them.
* `Regroup.Collector.outgoingPlan` — the sends by which messages leave.
* `Regroup.Collector.outOfReady`, `Regroup.Collector.outOfClosed` — what leaves a group that is
  ready, and one that is closed early.
* `Regroup.Collector.Issues` — what leaves the groups because of a call.

## Main results

* `Regroup.Collector.exists_issues_handle`, `Regroup.Collector.exists_issues_close` — the plan of a
  call sends what leaves the groups because of it, and nothing else.
-/

namespace Regroup

/-- Messages that leave their groups. -/
structure Outgoing where
  /-- The messages that are released, in order. -/
  released : List Message
  /-- The messages that are discarded behind them, in order. -/
  discarded : List Message
  deriving DecidableEq

namespace Collector

variable (c : Collector) {s : Store} {key : Key} {g : Group} {m : Message} {now : Instant}

/-- The sends by which messages leave: the released ones go to their own reply channels or else to
the common output, and behind them the discarded ones to the channel for those, if there is one. -/
def outgoingPlan (o : Outgoing) : List Send :=
  o.released.map Send.release ++ c.discardPlan o.discarded

/-- Where nothing leaves nothing is to be sent. -/
@[simp] lemma outgoingPlan_nil : c.outgoingPlan ⟨[], []⟩ = [] := by
  simp [outgoingPlan, discardPlan]

/-- The output path gets what is released. -/
lemma filter_isOutput_outgoingPlan (o : Outgoing) :
    (c.outgoingPlan o).filter (·.isOutput) = o.released.map Send.release :=
  c.filter_isOutput_plan o.released o.discarded

/-- The channel for discarded messages gets what is discarded. -/
lemma filter_not_isOutput_outgoingPlan (o : Outgoing) :
    (c.outgoingPlan o).filter (!·.isOutput) = c.discardPlan o.discarded :=
  c.filter_not_isOutput_plan o.released o.discarded

variable {c} in
/-- With a channel for discarded messages everything that leaves is sent. -/
lemma map_message_outgoingPlan (hd : c.discards = true) (o : Outgoing) :
    (c.outgoingPlan o).map (·.message) = o.released ++ o.discarded := by
  simp [outgoingPlan, discardPlan, hd, Function.comp_def, Send.release, Send.discard]

/-! ## Groups -/

/-- What leaves a ready group: what it emits, and behind that what it still holds if it has emitted
everything. -/
def outOfReady (g : Group) : Outgoing :=
  match c.processor.process g with
  | (.final messages, left) => ⟨messages, left.messages⟩
  | (.interim messages, _) => ⟨messages, []⟩

/-- What leaves a group that is closed early: what it emits then and behind that what it still
holds, or all that it holds. A group that holds nothing is not asked. -/
def outOfClosed (g : Group) : Outgoing :=
  if g.isEmpty then ⟨[], []⟩
  else if c.settings.sendsEarlyResults then
    ⟨(c.processor.processEarly g).1, (c.processor.processEarly g).2.messages⟩
  else ⟨[], g.messages⟩

/-- What is to be sent because of a ready group. -/
lemma settle_snd (g : Group) : (c.settle g).2 = c.outgoingPlan (c.outOfReady g) := by
  unfold settle outOfReady
  generalize c.processor.process g = processed
  obtain ⟨emission, left⟩ := processed
  cases emission with
  | final messages => rfl
  | interim messages => simp [outgoingPlan, discardPlan]

/-- A ready group releases what it emits. -/
lemma released_outOfReady (g : Group) :
    (c.outOfReady g).released = (c.processor.process g).1.messages := by
  unfold outOfReady
  generalize c.processor.process g = processed
  obtain ⟨emission, left⟩ := processed
  cases emission <;> rfl

/-- Nothing leaves a group that holds nothing. -/
lemma outOfClosed_of_isEmpty (h : g.isEmpty = true) : c.outOfClosed g = ⟨[], []⟩ := if_pos h

/-- A group that holds nothing need not be told apart where the processor is one of those provided:
they emit nothing then. -/
lemma outOfClosed_of_isProvided (hp : c.processor.isProvided = true) (g : Group) :
    c.outOfClosed g =
      if c.settings.sendsEarlyResults then
        ⟨(c.processor.processEarly g).1, (c.processor.processEarly g).2.messages⟩
      else ⟨[], g.messages⟩ := by
  unfold outOfClosed
  split
  · rename_i hempty
    have hnil := g.isEmpty_iff.1 hempty
    unfold Processor.processEarly
    cases hproc : c.processor with
    | passThrough => simp [Processor.process, Group.takeAll, hnil, Emission.messages]
    | aggregate combine => simp [Processor.process, Group.takeAll, hnil, Emission.messages]
    | resequence r => simp [Group.takeNumbered, Group.ordered, hnil]
    | custom p => simp [hproc, Processor.isProvided] at hp
  · rfl

/-- Of a group that is closed early a resequencer releases the accepted messages at the positions
from the barrier on, and discards those without a position. -/
lemma outOfClosed_of_reflects {r : Resequencer} (hp : c.processor = .resequence r)
    (hearly : c.settings.sendsEarlyResults = true) {accepted : List Message}
    (h : g.Reflects accepted) (hd : g.isDrained = false) :
    c.outOfClosed g =
      ⟨firstsFrom accepted g.barrier.next.toNat (Group.limit g.size - g.barrier.next.toNat),
        accepted.filter (!·.isNumbered)⟩ := by
  rw [← h.takeNumbered hd, ← h.filter_unnumbered]
  rw [c.outOfClosed_of_isProvided (by rw [hp]; rfl), hp, if_pos hearly]
  rfl

/-- What is to be sent because of a group that is closed early. -/
lemma close_of_get? (h : s.get? key = some g) :
    (c.close s key).2 = c.outgoingPlan (c.outOfClosed g) := by
  unfold close Store.remove
  simp only [h]
  cases hempty : g.isEmpty with
  | true => rw [outOfClosed_of_isEmpty c hempty, outgoingPlan_nil, if_pos rfl]
  | false =>
    unfold outgoingPlan outOfClosed
    rw [hempty]
    cases c.settings.sendsEarlyResults <;> rfl

/-- Where there is no group to be closed nothing is to be sent. -/
lemma close_of_absent (h : s.get? key = none) : (c.close s key).2 = [] := by
  unfold close Store.remove
  rw [h]

/-! ## Calls -/

/-- What is discarded of a message that is refused: one that comes late or tells another length. -/
def turnedAway (m : Message) : Verdict → List Message
  | .objected .completed | .objected .sizeConflict => [m]
  | .objected .outOfRange | .objected .duplicate => []
  | .keyless | .malformed | .unstored _ | .accepted => []

/-- What is to be sent for a refused message. -/
lemma refusalPlan_eq (m : Message) (verdict : Verdict) :
    c.refusalPlan m verdict = c.outgoingPlan ⟨[], turnedAway m verdict⟩ := by
  cases verdict with
  | objected objection => cases objection <;> simp [refusalPlan, objectionPlan, turnedAway,
      outgoingPlan, discardPlan]
  | keyless | malformed | unstored _ | accepted =>
    simp [refusalPlan, turnedAway]

/-- What leaves the groups because of a call that hands in a message or closes a group. -/
inductive Issues (h : Holdings) : Call → Outgoing → Prop where
  /-- Of a refused message only the message itself can be discarded. -/
  | refused {m : Message} {now : Instant} (refused : c.judge h now m ≠ .accepted) :
    Issues h (.handle m now) ⟨[], turnedAway m (c.judge h now m)⟩
  /-- Nothing leaves a group that is not ready behind the message. -/
  | gathered {m : Message} {now : Instant} {key : Key}
    (resolved : (c.keyRule.resolve h.issued m).1 = some key)
    (accepted : c.judge h now m = .accepted)
    (waiting : c.releaseRule.isReady ((h.store.groupOf key now).join m) = false) :
    Issues h (.handle m now) ⟨[], []⟩
  /-- A group that is ready behind the message is processed. -/
  | ready {m : Message} {now : Instant} {key : Key}
    (resolved : (c.keyRule.resolve h.issued m).1 = some key)
    (accepted : c.judge h now m = .accepted)
    (ready : c.releaseRule.isReady ((h.store.groupOf key now).join m) = true) :
    Issues h (.handle m now) (c.outOfReady ((h.store.groupOf key now).join m))
  /-- There is no group to be closed. -/
  | absent {key : Key} (absent : h.store.get? key = none) : Issues h (.close key) ⟨[], []⟩
  /-- A group is closed early. -/
  | closed {key : Key} {g : Group} (stored : h.store.get? key = some g) :
    Issues h (.close key) (c.outOfClosed g)

/-- The plan of a call that hands in a message sends what leaves the groups because of it. -/
theorem exists_issues_handle {h : Holdings} (hv : h.store.Valid) (m : Message) (now : Instant) :
    ∃ o, c.Issues h (.handle m now) o ∧ (c.handle h now m).1.plan = c.outgoingPlan o := by
  have hverdict := c.verdict_handle hv now m
  cases c.outcome_handle hv now m with
  | refused reason verdict store plan =>
    rw [hverdict] at verdict plan
    exact ⟨_, .refused verdict, plan.trans (c.refusalPlan_eq m _)⟩
  | accepted key resolved wellFormed welcome verdict plan valid store =>
    rw [hverdict] at verdict
    unfold receive at plan
    cases hready : c.releaseRule.isReady ((h.store.groupOf key now).join m) with
    | false =>
      rw [hready, if_neg (by simp)] at plan
      exact ⟨_, .gathered resolved verdict hready, plan.trans c.outgoingPlan_nil.symm⟩
    | true =>
      rw [hready, if_pos rfl] at plan
      exact ⟨_, .ready resolved verdict hready, plan.trans (c.settle_snd _)⟩

/-- The plan of a call that closes a group sends what leaves it. -/
theorem exists_issues_close (h : Holdings) (key : Key) :
    ∃ o, c.Issues h (.close key) o ∧ (c.close h.store key).2 = c.outgoingPlan o := by
  cases hg : h.store.get? key with
  | none => exact ⟨_, .absent hg, (c.close_of_absent hg).trans c.outgoingPlan_nil.symm⟩
  | some g => exact ⟨_, .closed hg, c.close_of_get? hg⟩

end Collector

end Regroup
