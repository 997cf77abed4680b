import Regroup.Delivery.Network
import Regroup.Message.Edit
import Regroup.Proofs.Collector.Lifetime
import Regroup.Proofs.Collector.Outgoing
import Regroup.Proofs.Delivery.Prefix

/-!
# What is held is settled before anything is sent

Whether sends fail makes no difference to what a collector holds behind a call, nor to what the
call wants to send. It decides only how much of that is sent, and what is answered.

## Main definitions

* `Regroup.Collector.refusal?` — why a call fails before anything is to be sent.
* `Regroup.CarriesOut` — that a call sends as much of a plan as it can, and answers accordingly.

## Main results

* `Regroup.Collector.holdings_after_congr` — what is held behind calls does not depend on the
  channels.
* `Regroup.Collector.not_forall_done_iff_delivered` — a call can fail without a failed send.
* `Regroup.Collector.settled_of_call` — in all channels a call leaves the same behind and carries
  out the same plan.
-/

namespace Regroup

variable {σ σ₁ σ₂ : Type}

/-- A call sends as much of a plan as the channels take. It is done if that is all of the plan and
the call has not been refused; otherwise it answers why it was refused, or why the first send that
was not made has failed. -/
structure CarriesOut (t : Transport σ) (state : σ) (plan : List Send) (refusal : Option Failure)
    (p : Performed σ) : Prop where
  /-- The longest part from the front of the plan is delivered that the channels take. -/
  delivers : t.Delivers state plan p.delivered p.world.channels
  /-- The call is done exactly if it has not been refused and all has been delivered. -/
  done_iff : p.answer = .done none ↔ refusal = none ∧ p.delivered = plan
  /-- The first send that has not been made fails, and the call answers why. -/
  failed : ∀ s rest, plan = p.delivered ++ s :: rest →
    ∃ between cause, t.Carries state p.delivered between ∧
      t.send between s = (some cause, p.world.channels) ∧
      p.answer = .done (some (.dispatch cause))
  /-- Where the call has been refused nothing is to be sent, and the call answers why. -/
  refused : ∀ failure, refusal = some failure → plan = [] ∧ p.answer = .done (some failure)

/-- A call carries out a plan if it delivers it and answers with its refusal, or else with the
failure of the delivery. -/
private lemma carriesOut_of_deliver {t : Transport σ} {state : σ} {plan : List Send}
    {refusal : Option Failure} {p : Performed σ}
    (hdelivered : p.delivered = (deliver t state plan).delivered)
    (hchannels : p.world.channels = (deliver t state plan).state)
    (hanswer : p.answer =
      .done (refusal.or ((deliver t state plan).failure.map .dispatch)))
    (hrefused : refusal ≠ none → plan = []) : CarriesOut t state plan refusal p := by
  constructor
  · rw [hdelivered, hchannels]
    exact delivers_deliver t state plan
  · rw [hanswer, hdelivered, ← failure_eq_none_iff_delivered, Answer.done.injEq,
      Option.or_eq_none_iff, Option.map_eq_none_iff]
  · intro s rest hplan
    rw [hdelivered] at hplan
    have hleft : (deliver t state plan).left = s :: rest :=
      List.append_cancel_left ((delivered_append_left t state plan).trans hplan)
    obtain ⟨between, cause, hcarries, hsend, hfailure⟩ := send_of_left_eq_cons t state hleft
    have hnone : refusal = none := by
      by_contra h
      rw [hrefused h] at hplan
      simp at hplan
    rw [hdelivered, hchannels]
    refine ⟨between, cause, hcarries, hsend, ?_⟩
    rw [hanswer, hfailure, hnone]
    rfl
  · rintro failure rfl
    exact ⟨hrefused (by simp), by rw [hanswer, Option.some_or]⟩

namespace Collector

variable (c : Collector)

/-! ## What is held -/

/-- What is held behind a call does not depend on the channels. -/
lemma holdings_perform_congr (t₁ : Transport σ₁) (t₂ : Transport σ₂) {w₁ : World σ₁} {w₂ : World σ₂}
    (h : w₁.holdings = w₂.holdings) (call : Call) :
    (c.perform t₁ w₁ call).world.holdings = (c.perform t₂ w₂ call).world.holdings := by
  cases call <;> simp only [perform, h]

/-- What is held behind calls does not depend on the channels. -/
theorem holdings_after_congr (t₁ : Transport σ₁) (t₂ : Transport σ₂) {w₁ : World σ₁} {w₂ : World σ₂}
    (h : w₁.holdings = w₂.holdings) (calls : List Call) :
    (c.after t₁ w₁ calls).holdings = (c.after t₂ w₂ calls).holdings := by
  induction calls generalizing w₁ w₂ with
  | nil => exact h
  | cons call calls ih => exact ih (c.holdings_perform_congr t₁ t₂ h call)

/-! ## What is sent and answered -/

/-- Why a call fails before anything is to be sent: its message has no key, or the store neither has
nor makes room for it. -/
def refusal? (h : Holdings) : Call → Option Failure
  | .handle m now => (c.judge h now m).failure?
  | .close _ | .expire _ => none

/-- Behind a valid store a call carries out the plan of what leaves the groups. -/
private lemma exists_issues_carriesOut {h : Holdings} (hv : h.store.Valid) (call : Call)
    (hcall : ∀ now, call ≠ .expire now) :
    ∃ o, c.Issues h call o ∧ ∀ {σ : Type} (t : Transport σ) (state : σ),
      CarriesOut t state (c.outgoingPlan o) (c.refusal? h call) (c.perform t ⟨h, state⟩ call) := by
  cases call with
  | expire now => exact absurd rfl (hcall now)
  | close key =>
    obtain ⟨o, hissues, hplan⟩ := c.exists_issues_close h key
    refine ⟨o, hissues, fun t state => ?_⟩
    rw [← hplan]
    exact carriesOut_of_deliver rfl rfl (by rfl) (by simp [refusal?])
  | handle m now =>
    obtain ⟨o, hissues, hplan⟩ := c.exists_issues_handle hv m now
    refine ⟨o, hissues, fun t state => ?_⟩
    have hverdict := c.verdict_handle hv now m
    rw [← hplan, refusal?, ← hverdict]
    refine carriesOut_of_deliver rfl rfl rfl fun hrefusal => ?_
    -- what is refused with a failure is not discarded
    cases c.outcome_handle hv now m with
    | accepted _ _ _ _ verdict => simp [verdict, Verdict.failure?] at hrefusal
    | refused _ _ _ plan =>
      rw [plan]
      cases hjudged : (c.handle h now m).1.verdict with
      | keyless | unstored cause | malformed | accepted => rfl
      | objected objection => simp [hjudged, Verdict.failure?] at hrefusal

/-- Not every call that delivers all it is to send is done: a message without a key is refused, and
nothing is to be sent for it. -/
theorem not_forall_done_iff_delivered :
    ¬ ∀ (c : Collector) (calls : List Call) (call : Call) (o : Outgoing),
      c.releaseRule.isProvided = true → c.processor.isProvided = true →
        (∀ now, call ≠ .expire now) →
        c.Issues (c.after .recording (c.start []) calls).holdings call o →
          let p := c.perform .recording (c.after .recording (c.start []) calls) call
          (p.answer = .done none ↔ p.delivered = c.outgoingPlan o) := by
  intro hall
  let c := processing default (.correlation .refuse) .passThrough none true
  have hjudge : c.judge (c.start ([] : List Send)).holdings ⟨5⟩ (.bare "x") = .keyless := by decide
  have hissues : c.Issues (c.start ([] : List Send)).holdings (.handle (.bare "x") ⟨5⟩)
      ⟨[], turnedAway (.bare "x") .keyless⟩ := by
    rw [← hjudge]
    exact .refused (by rw [hjudge]; simp)
  have := (hall c [] (.handle (.bare "x") ⟨5⟩) _ rfl rfl (by simp) hissues).2 (by decide)
  exact absurd this (by decide)

/-- **What is held is settled before anything is sent**, behind any calls of a collector, whatever
its policies and settings are. A call that hands in a message or closes a group leaves the same
behind in any two states of any channels, and carries out the same plan in both: to send what
leaves the groups because of the call.

**Proof sketch.** The sends come last in every call, so what is held cannot depend on them. The
plan and the refusal are told from what is held before (`exists_issues_handle`, `verdict_handle`).
-/
theorem settled_of_call {σ₀ : Type} (t₀ : Transport σ₀) (channels : σ₀) (calls : List Call)
    (call : Call) (hcall : ∀ now, call ≠ .expire now) (t₁ : Transport σ₁) (t₂ : Transport σ₂)
    (state₁ : σ₁) (state₂ : σ₂) :
    let h := (c.after t₀ (c.start channels) calls).holdings
    let p₁ := c.perform t₁ ⟨h, state₁⟩ call
    let p₂ := c.perform t₂ ⟨h, state₂⟩ call
    p₁.world.holdings = p₂.world.holdings ∧
      ∃ o, c.Issues h call o ∧
        CarriesOut t₁ state₁ (c.outgoingPlan o) (c.refusal? h call) p₁ ∧
        CarriesOut t₂ state₂ (c.outgoingPlan o) (c.refusal? h call) p₂ := by
  intro h p₁ p₂
  obtain ⟨o, hissues, hcarries⟩ :=
    c.exists_issues_carriesOut (c.valid_after_start t₀ channels calls) call hcall
  exact ⟨c.holdings_perform_congr t₁ t₂ rfl call, o, hissues, hcarries t₁ state₁,
    hcarries t₂ state₂⟩

/-- A sequence is released to an output, a reply channel and the channel for discarded messages. In
the second network the reply channel is closed. -/
theorem settled_of_call_refusing :
    let m := fun payload headers => Message.build (.bare payload) (.correlationId "a" :: headers)
    let c := resequencing (.resequencing false) (.correlation .refuse) none true
    let one := m "one" [.sequenceNumber 1, .sequenceSize 2]
    let two := m "two" [.sequenceNumber 2, .replyChannel "r"]
    let other := m "other" []
    let h := (c.after .recording (c.start [])
      [.handle other ⟨5⟩, .handle two ⟨6⟩]).holdings
    let call : Call := .handle one ⟨7⟩
    let queue : Channel := .queue (.empty none)
    let network : Channel → Network := fun reply =>
      ⟨((Dict.empty.insert ChannelId.output queue).insert "r" reply).insert ChannelId.discard queue⟩
    let t := Network.transport none
    let p₁ := c.perform t ⟨h, network queue⟩ call
    let p₂ := c.perform t ⟨h, network .refusing⟩ call
    p₁.delivered = [⟨one, .output⟩, ⟨two, .reply "r"⟩, ⟨other, .discard⟩] ∧
      p₁.answer = .done none ∧
      p₂.delivered = [⟨one, .output⟩] ∧
      p₂.answer = .done (some (.dispatch .disconnected)) ∧
      p₁.world.holdings = p₂.world.holdings ∧
      ∃ o, c.Issues h call o ∧
        CarriesOut t (network queue) (c.outgoingPlan o) (c.refusal? h call) p₁ ∧
        CarriesOut t (network .refusing) (c.outgoingPlan o) (c.refusal? h call) p₂ := by
  intro m c one two other h call queue network t p₁ p₂
  exact ⟨by decide, by decide, by decide, by decide,
    c.settled_of_call .recording [] [.handle other ⟨5⟩, .handle two ⟨6⟩] call (by simp [call]) t t
      (network queue) (network .refusing)⟩

end Collector

end Regroup
