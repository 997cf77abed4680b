import Regroup.Message.Edit
import Regroup.Proofs.Collector.Lifetime
import Regroup.Proofs.Collector.Outgoing
import Regroup.Proofs.Store.Contents

/-!
# No message is lost

A collector that sends messages on as they are neither loses nor invents any. What was buffered
before a call and what the call hands in is afterwards buffered or sent, up to a few messages that
are dropped on purpose: malformed ones, ones that are out of range or have come before, and those
that an accepted message evicts.

## Main definitions

* `Regroup.Processor.passesOn` — whether groups are processed without combining their messages.
* `Regroup.Collector.dropped` — the messages that a call drops without sending them anywhere.

## Main results

* `Regroup.Collector.perm_receive` — a group that a message joins loses nothing.
* `Regroup.Collector.contents_perform` — no call without a failure loses or invents a message.
-/

namespace Regroup

variable {g : Group} {m : Message} {key : Key} {now : Instant}

/-! ## Groups -/

namespace Group

/-- The numbered messages and those that stay are what was buffered. -/
lemma perm_takeNumbered (g : Group) :
    (g.takeNumbered.1 ++ g.takeNumbered.2.messages).Perm g.messages := by
  show (ordered (g.messages.filter (·.isNumbered)) ++ g.messages.filter (!·.isNumbered)).Perm _
  rw [ordered_eq_insertionSort]
  exact ((List.perm_insertionSort _ _).append_right _).trans (List.filter_append_perm _ _)

/-- What a message evicts and what it does not are what was buffered. -/
lemma perm_dropExcess (g : Group) (m : Message) :
    ((g.dropExcess m).messages ++ g.excess m).Perm g.messages := by
  unfold dropExcess excess
  split
  · exact List.filter_append_perm _ _
  · simp

end Group

namespace Processor

/-- Whether the messages of a group are known to be emitted as they are, and not combined into
another one. -/
def passesOn : Processor → Bool
  | .passThrough | .resequence _ => true
  | .aggregate _ | .custom _ => false

variable {p : Processor}

/-- A processor that passes messages on is one of those provided. -/
lemma isProvided_of_passesOn (hp : p.passesOn = true) : p.isProvided = true := by
  cases p with
  | aggregate combine => simp [passesOn] at hp
  | custom p => simp [passesOn] at hp
  | passThrough | resequence r => rfl

/-- What a ready group emits and what is left of it are what it held. -/
lemma perm_process (hp : p.passesOn = true) (g : Group) :
    ((p.process g).1.messages ++ (p.process g).2.messages).Perm g.messages := by
  cases p with
  | aggregate combine => simp [passesOn] at hp
  | custom p => simp [passesOn] at hp
  | passThrough => simp [process, Group.takeAll, Emission.messages]
  | resequence r =>
    cases hr : r.releasesRuns with
    | false =>
      rw [process_whole hr]
      exact g.perm_takeNumbered
    | true =>
      rw [process_runs hr]
      cases g.releaseRun.2.isDrained <;> exact g.perm_releaseRun

/-- What a group emits that is closed early and what is left of it are what it held. -/
lemma perm_processEarly (hp : p.passesOn = true) (g : Group) :
    ((p.processEarly g).1 ++ (p.processEarly g).2.messages).Perm g.messages := by
  cases p with
  | aggregate combine => simp [passesOn] at hp
  | custom p => simp [passesOn] at hp
  | passThrough => exact perm_process hp g
  | resequence r => exact g.perm_takeNumbered

end Processor

/-! ## Messages of sends and calls -/

/-- Two wholes that differ by a part are completed alike where the parts are. -/
private lemma add_eq_of_frame {α : Type} {a a' b b' m p e : Multiset α}
    (hframe : a + b' = a' + b) (hpart : b' + p + e = b + m) : a + m = a' + p + e := by
  refine add_right_cancel (b := b) ?_
  calc a + m + b = a + (b + m) := by ac_rfl
    _ = a + b' + p + e := by rw [← hpart]; ac_rfl
    _ = a' + p + e + b := by rw [hframe]; ac_rfl

/-- The message that a call hands in, if it does. -/
def Call.handedIn : Call → Multiset Message
  | .handle m _ => {m}
  | .close _ | .expire _ => 0

/-- The messages of some sends. -/
def messagesOf (sends : List Send) : Multiset Message := sends.map (·.message)

/-- Sends to the output path and sends that discard are all sends. -/
lemma messagesOf_filter_add (sends : List Send) :
    messagesOf (sends.filter (·.isOutput)) + messagesOf (sends.filter (!·.isOutput)) =
      messagesOf sends := by
  unfold messagesOf
  rw [Multiset.coe_add, ← List.map_append, Multiset.coe_eq_coe]
  exact (List.filter_append_perm _ _).map _

namespace Collector

variable {c : Collector}

/-! ## Groups that release -/

/-- What leaves a ready group and what stays of it in the store are what it held. -/
lemma perm_settle (hp : c.processor.passesOn = true) (g : Group) :
    ((c.outOfReady g).released ++ (c.outOfReady g).discarded ++
      ((c.settle g).1.map (·.messages)).getD []).Perm g.messages := by
  have hperm := Processor.perm_process hp g
  unfold outOfReady settle
  generalize c.processor.process g = processed at hperm ⊢
  obtain ⟨emission, left⟩ := processed
  cases emission with
  | final messages =>
    -- a mark holds nothing
    have hnil : ((if c.marks left then some left.complete else none).map (·.messages)).getD [] =
        [] := by
      split <;> rfl
    show (messages ++ left.messages ++ _).Perm _
    rwa [hnil, List.append_nil]
  | interim messages => simpa [Emission.messages] using hperm

/-- What leaves a group that is closed early is what it held. -/
lemma perm_outOfClosed (hp : c.processor.passesOn = true) (g : Group) :
    ((c.outOfClosed g).released ++ (c.outOfClosed g).discarded).Perm g.messages := by
  rw [c.outOfClosed_of_isProvided (Processor.isProvided_of_passesOn hp)]
  split
  · exact Processor.perm_processEarly hp g
  · exact .refl _

/-- What is sent, evicted and still held because of a message that joins a group is what the group
held and the message. -/
theorem perm_receive (hp : c.processor.passesOn = true) (hd : c.discards = true) (g : Group)
    (m : Message) :
    (((c.receive g m).1.map (·.messages)).getD [] ++ (c.receive g m).2.map (·.message) ++
      g.excess m).Perm (g.messages ++ [m]) := by
  have hjoin : ((g.join m).messages ++ g.excess m).Perm (g.messages ++ [m]) := by
    rw [Group.messages_join, List.append_assoc]
    exact (List.perm_append_comm.append_left _).trans
      ((List.append_assoc _ _ _ ▸ (g.perm_dropExcess m).append_right [m]))
  refine List.Perm.trans (List.Perm.append_right _ ?_) hjoin
  unfold receive
  split
  · rw [settle_snd, map_message_outgoingPlan hd]
    exact List.perm_append_comm.trans (perm_settle hp _)
  · simp

/-! ## Calls -/

/-- The messages that a call drops without sending them anywhere: a message that is malformed, out
of range or has come before, and what an accepted message evicts. -/
def dropped (c : Collector) (h : Holdings) : Call → Multiset Message
  | .handle m now =>
    match c.judge h now m with
    | .malformed | .objected .outOfRange | .objected .duplicate => {m}
    | .accepted =>
      match (c.keyRule.resolve h.issued m).1 with
      | some key => (h.store.groupOf key now).excess m
      | none => 0
    | .keyless | .unstored _ | .objected .completed | .objected .sizeConflict => 0
  | .close _ | .expire _ => 0

/-- Handing in a message loses none, unless the call fails before anything is sent. -/
private lemma contents_handle {h : Holdings} (hv : h.store.Valid)
    (hp : c.processor.passesOn = true) (hd : c.discards = true)
    (hok : (c.handle h now m).1.verdict.failure? = none) :
    h.store.contents + {m} =
      (c.handle h now m).1.store.contents + messagesOf (c.handle h now m).1.plan +
        c.dropped h (.handle m now) := by
  have hverdict := c.verdict_handle hv now m
  cases c.outcome_handle hv now m with
  | refused reason verdict store plan =>
    rw [store, plan, refusalPlan_eq, messagesOf, map_message_outgoingPlan hd, List.nil_append]
    simp only [dropped, ← hverdict]
    cases hjudged : (c.handle h now m).1.verdict with
    | keyless => simp [hjudged, Verdict.failure?] at hok
    | unstored cause => simp [hjudged, Verdict.failure?] at hok
    | accepted => exact absurd hjudged verdict
    | malformed => simp [turnedAway]
    | objected objection => cases objection <;> simp [turnedAway]
  | accepted key resolved wellFormed welcome verdict plan valid store =>
    have hframe := Store.contents_add_of_frame h.store (c.handle h now m).1.store key
      fun k hk => by rw [store, if_neg hk]
    have hafter : (c.handle h now m).1.store.list key =
        ((c.receive (h.store.groupOf key now) m).1.map (·.messages)).getD [] := by
      rw [Store.list, store, if_pos rfl]
    have hbefore : h.store.list key = (h.store.groupOf key now).messages := by
      unfold Store.list Store.groupOf
      cases h.store.get? key <;> rfl
    have hperm := Multiset.coe_eq_coe.2 (perm_receive hp hd (h.store.groupOf key now) m)
    rw [← hafter, ← hbefore, ← Multiset.coe_add, ← Multiset.coe_add, ← Multiset.coe_add] at hperm
    simp only [dropped, ← hverdict, verdict, resolved, plan]
    exact add_eq_of_frame hframe (hperm.trans (by rw [Multiset.coe_singleton]))

/-- Closing a group loses no message. -/
private lemma contents_close (h : Holdings) (hp : c.processor.passesOn = true)
    (hd : c.discards = true) (key : Key) :
    h.store.contents =
      (c.close h.store key).1.contents + messagesOf (c.close h.store key).2 := by
  have hframe := Store.contents_add_of_frame h.store (c.close h.store key).1 key
    fun k hk => by rw [close_fst, Store.get?_remove_eq, if_neg hk]
  rw [Store.list_of_absent (c.get?_close h.store key), Multiset.coe_nil, add_zero] at hframe
  rw [hframe]
  congr 1
  cases hg : h.store.get? key with
  | none => rw [Store.list_of_absent hg, c.close_of_absent hg, messagesOf, List.map_nil]
  | some g =>
    rw [Store.list_of_get? hg, c.close_of_get? hg, messagesOf, map_message_outgoingPlan hd,
      Multiset.coe_eq_coe]
    exact (perm_outOfClosed hp g).symm

variable {σ : Type} {t : Transport σ} {w : World σ} {call : Call}

/-- A call without a failure has sent its plan, and its message has not been refused for good. -/
private lemma delivered_of_done (hok : (c.perform t w (.handle m now)).answer = .done none) :
    (c.handle w.holdings now m).1.verdict.failure? = none ∧
      (c.perform t w (.handle m now)).delivered = (c.handle w.holdings now m).1.plan := by
  rw [answer_handle, Answer.done.injEq, Option.or_eq_none_iff, Option.map_eq_none_iff] at hok
  exact ⟨hok.1, delivered_eq_of_failure_eq_none t hok.2⟩

/-- The channels take all that a call without a failure sends. -/
private lemma carries_of_done (hok : (c.perform t w call).answer = .done none) :
    t.Carries w.channels (c.perform t w call).delivered (c.perform t w call).world.channels := by
  cases call with
  | handle m now =>
    rw [answer_handle, Answer.done.injEq, Option.or_eq_none_iff, Option.map_eq_none_iff] at hok
    exact carries_of_failure_eq_none t w.channels hok.2
  | close key =>
    rw [answer_close, Answer.done.injEq, Option.map_eq_none_iff] at hok
    exact carries_of_failure_eq_none t w.channels hok
  | expire now => simp [perform] at hok

/-- **No message is lost or invented** by a call without a failure, behind any calls of a collector
that passes messages on and has a channel for discarded ones: what is buffered before it and the
message handed in are what is buffered behind it, what it has sent to the output path, what it has
discarded, and what it has dropped. The channels are led by the sends of the calls to where the call
finds them, and take all that it sends.

**Proof sketch.** A refused message leaves the store as it is, and is discarded or dropped. A
message that joins changes one group only, and that group loses nothing (`perm_receive`). So does a
group that is closed. Without a failure the whole plan has been sent. -/
theorem contents_perform (c : Collector) (hp : c.processor.passesOn = true)
    (hd : c.discards = true) (t : Transport σ) (channels : σ) (calls : List Call) (call : Call)
    (hok : (c.perform t (c.after t (c.start channels) calls) call).answer = .done none) :
    let w := c.after t (c.start channels) calls
    let p := c.perform t w call
    w.holdings.store.contents + call.handedIn =
        p.world.holdings.store.contents + messagesOf (p.delivered.filter (·.isOutput)) +
          messagesOf (p.delivered.filter (!·.isOutput)) + c.dropped w.holdings call ∧
      t.Leads channels (c.sends t (c.start channels) calls) w.channels ∧
      t.Carries w.channels p.delivered p.world.channels := by
  intro w p
  have hv : w.holdings.store.Valid := c.valid_after_start t channels calls
  refine ⟨?_, c.leads_after t (c.start channels) calls, carries_of_done hok⟩
  rw [add_assoc p.world.holdings.store.contents, messagesOf_filter_add]
  cases call with
  | handle m now =>
    obtain ⟨hverdict, hdelivered⟩ := delivered_of_done hok
    show _ = _ + messagesOf (c.perform t w (.handle m now)).delivered + _
    rw [hdelivered]
    exact contents_handle hv hp hd hverdict
  | close key =>
    have hfailure : (deliver t w.channels (c.close w.holdings.store key).2).failure = none := by
      have : Answer.done ((deliver t w.channels (c.close w.holdings.store key).2).failure.map
        .dispatch) = .done none := hok
      simpa using this
    have hdelivered := delivered_eq_of_failure_eq_none t hfailure
    show w.holdings.store.contents + 0 = (c.close w.holdings.store key).1.contents +
      messagesOf (deliver t w.channels (c.close w.holdings.store key).2).delivered + 0
    rw [hdelivered, add_zero, add_zero]
    exact contents_close w.holdings hp hd key
  | expire now => simp [perform] at hok

/-- A message completes a sequence whose length it is the first to tell: what lies beyond the end is
dropped, and what has no position is discarded. -/
theorem contents_perform_evicting :
    let m := fun payload headers => Message.build (.bare payload) (.correlationId "a" :: headers)
    let c := resequencing (.resequencing false) (.correlation .refuse) none true
    let calls : List Call := [.handle (m "other" []) ⟨5⟩, .handle (m "two" [.sequenceNumber 2]) ⟨6⟩,
      .handle (m "five" [.sequenceNumber 5]) ⟨7⟩]
    let call : Call := .handle (m "one" [.sequenceNumber 1, .sequenceSize 2]) ⟨8⟩
    let w := c.after .recording (c.start []) calls
    let p := c.perform .recording w call
    p.answer = .done none ∧
      c.dropped w.holdings call = {m "five" [.sequenceNumber 5]} ∧
      (w.holdings.store.contents + call.handedIn =
          p.world.holdings.store.contents + messagesOf (p.delivered.filter (·.isOutput)) +
            messagesOf (p.delivered.filter (!·.isOutput)) + c.dropped w.holdings call ∧
        Transport.recording.Leads [] (c.sends .recording (c.start []) calls) w.channels ∧
        Transport.recording.Carries w.channels p.delivered p.world.channels) := by
  intro m c calls call w p
  have hok : p.answer = .done none := by decide
  exact ⟨hok, by decide, contents_perform c rfl rfl .recording [] calls call hok⟩

end Collector

end Regroup
