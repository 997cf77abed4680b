import Regroup.Delivery.Network
import Regroup.Proofs.Delivery.Prefix

/-!
# Channels that answer steadily

Channels are steady if it is settled which sends they take and why they fail the others, whatever
they have been sent before. Queues without a bound are steady, and so are channels that take nothing
or are missing. What steady channels deliver of a plan can be told from the plan alone.

## Main definitions

* `Regroup.Transport.failure?` — why a send fails in some state of the channels.
* `Regroup.Transport.Steady` — that the same sends fail, whatever is sent.
* `Regroup.Network.Unbounded`, `Regroup.Network.refusal?` — that no queue of a network has a bound,
  and why a send then fails.

## Main results

* `Regroup.Transport.Steady.delivered_eq`, `Regroup.Transport.Steady.failure_eq` — what becomes of a
  plan.
* `Regroup.Network.Unbounded.steady` — a network without bounds is steady.
-/

namespace Regroup

variable {σ : Type}

namespace Transport

/-- Why a send fails, if it does. -/
def failure? (t : Transport σ) (state : σ) (s : Send) : Option DispatchFailure := (t.send state s).1

/-- Whatever the channels take or fail from now on, they fail the sends that are to fail, for the
cause given, and take the others. -/
def Steady (t : Transport σ) (fails : Send → Option DispatchFailure) (state : σ) : Prop :=
  ∀ made state', t.Leads state made state' → ∀ s, t.failure? state' s = fails s

variable {t : Transport σ} {fails : Send → Option DispatchFailure} {state state' : σ}

namespace Steady

/-- Steady channels stay steady. -/
lemma of_leads (h : t.Steady fails state) {made : List Send} (hl : t.Leads state made state') :
    t.Steady fails state' :=
  fun _ _ hmore => h _ _ (hl.append hmore)

/-- Steady channels are steady behind a delivery. -/
lemma deliver (h : t.Steady fails state) (plan : List Send) :
    t.Steady fails (deliver t state plan).state :=
  h.of_leads (leads_deliver t state plan)

/-- Steady channels deliver what stands in front of the first send that they fail, and the delivery
fails as that one does. -/
private lemma deliver_eq (h : t.Steady fails state) (plan : List Send) :
    (Regroup.deliver t state plan).delivered = plan.takeWhile (fun s => (fails s).isNone) ∧
      (Regroup.deliver t state plan).failure = plan.findSome? fails := by
  induction plan generalizing state with
  | nil => exact ⟨rfl, rfl⟩
  | cons s rest ih =>
    have hs := h [] state (.nil state) s
    unfold failure? at hs
    unfold Regroup.deliver
    rcases hsend : t.send state s with ⟨_ | cause, next⟩
    · rw [hsend] at hs
      obtain ⟨hdelivered, hfailure⟩ := ih (h.of_leads (.made hsend (.nil next)))
      simp [← hs, hdelivered, hfailure]
    · rw [hsend] at hs
      simp [← hs]

/-- Steady channels deliver what stands in front of the first send that they fail. -/
theorem delivered_eq (h : t.Steady fails state) (plan : List Send) :
    (Regroup.deliver t state plan).delivered = plan.takeWhile (fun s => (fails s).isNone) :=
  (h.deliver_eq plan).1

/-- A delivery to steady channels fails as the first send does that they fail. -/
theorem failure_eq (h : t.Steady fails state) (plan : List Send) :
    (Regroup.deliver t state plan).failure = plan.findSome? fails :=
  (h.deliver_eq plan).2

end Steady

end Transport

/-! ## Networks -/

namespace Network

/-- No queue of the network has a bound. -/
def Unbounded (n : Network) : Prop := ∀ id q, n.queue? id = some q → q.capacity = none

/-- Why a network without bounds fails a send: the channel is missing or takes nothing. -/
def refusal? (n : Network) (s : Send) : Option DispatchFailure :=
  match n.channels.get? s.target.channel with
  | none => some .noDestination
  | some .refusing => some .disconnected
  | some (.queue _) => none

variable {n n' : Network} {s : Send} {timeout : Option Duration}

/-- A send that goes through leads to the network behind it. -/
lemma send_of_transport_eq_none (h : (transport timeout).send n s = (none, n')) :
    n.send timeout s = .ok n' := by
  unfold transport at h
  cases hs : n.send timeout s <;> simp_all

/-- A failed send leaves the network as it is. -/
lemma eq_of_transport_eq_some {cause : DispatchFailure}
    (h : (transport timeout).send n s = (some cause, n')) : n = n' := by
  unfold transport at h
  cases hs : n.send timeout s <;> simp_all

/-- A network without bounds takes a send by putting the message into the queue that it goes to. -/
lemma Unbounded.send_eq (h : n.Unbounded) :
    n.send timeout s =
      match n.channels.get? s.target.channel with
      | none => .error .noDestination
      | some .refusing => .error .disconnected
      | some (.queue q) =>
        .ok (n.setQueue s.target.channel { q with messages := q.messages ++ [s.message] }) := by
  unfold send
  cases hget : n.channels.get? s.target.channel with
  | none => rfl
  | some channel =>
    cases channel with
    | refusing => rfl
    | queue q =>
      have hcap : q.capacity = none := h s.target.channel q (by simp [queue?, hget, Channel.queue?])
      have hroom : q.hasRoom = true := by simp [Queue.hasRoom, hcap]
      simp only [Channel.send, Queue.send, hroom, if_true]
      rfl

/-- A network without bounds fails a send if the channel is missing or takes nothing. -/
lemma Unbounded.failure?_eq (h : n.Unbounded) :
    (transport timeout).failure? n s = n.refusal? s := by
  unfold Transport.failure? refusal? transport
  simp only [h.send_eq]
  cases n.channels.get? s.target.channel with
  | none => rfl
  | some channel => cases channel <;> rfl

/-- A send that is taken leaves a network without bounds, which fails the same sends. -/
lemma Unbounded.send (h : n.Unbounded) (hsend : n.send timeout s = .ok n') :
    n'.Unbounded ∧ n'.refusal? = n.refusal? := by
  rw [h.send_eq] at hsend
  split at hsend
  · simp at hsend
  · simp at hsend
  · rename_i q hget
    obtain rfl := Except.ok.inj hsend
    have hcap : q.capacity = none := h s.target.channel q (by simp [queue?, hget, Channel.queue?])
    constructor
    · intro id q' hq'
      simp only [queue?, setQueue, Dict.get?_insert] at hq'
      split at hq'
      · obtain rfl := Option.some.inj hq'
        exact hcap
      · exact h id q' hq'
    · funext s'
      simp only [refusal?, setQueue, Dict.get?_insert]
      by_cases hs : s.target.channel = s'.target.channel
      · rw [if_pos hs, ← hs, hget]
      · rw [if_neg hs]

/-- A network without bounds is steady: whatever it is sent, a send fails if the channel was missing
or takes nothing. -/
theorem Unbounded.steady (h : n.Unbounded) (timeout : Option Duration) :
    (transport timeout).Steady n.refusal? n := by
  intro made n' hleads
  induction hleads with
  | nil => exact fun s => h.failure?_eq
  | made first others ih =>
    obtain ⟨hnext, hrefusal⟩ := h.send (send_of_transport_eq_none first)
    rw [← hrefusal]
    exact ih hnext
  | failed first others ih =>
    obtain rfl := eq_of_transport_eq_some first
    exact ih h

end Network

end Regroup
