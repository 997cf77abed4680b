import Regroup.Proofs.Collector.Step
import Regroup.Proofs.Delivery.Prefix
import Mathlib.Data.List.Induction

/-!
# Lifetimes

A lifetime of the group of a key reaches from the call that opens the group to the call that
removes it. What has happened in a lifetime is read off the calls made since it began: the messages
that have joined, those that have been evicted, and the sends to the output path.

## Main definitions

* `Regroup.Transport.recording` — channels that take what they are sent and remember it.
* `Regroup.Collector.start`, `Regroup.Collector.after` — the world before the first call, and the
  world behind a list of calls.
* `Regroup.Collector.Lifetime` — that calls lie within one lifetime of the group of a key.
* `Regroup.Collector.history`, `Regroup.Collector.evictions`, `Regroup.Collector.kept`,
  `Regroup.Collector.releases`, `Regroup.Collector.outputs` — what has happened to the group of a
  key in a list of calls.
* `Regroup.Collector.sends`, `Regroup.Collector.answers` — everything that is sent by a list of
  calls, and what is answered to them.
* `Regroup.Collector.HasSent` — that sends have been made by a list of calls, and have led the
  channels to where they are.
* `Regroup.Collector.Delivers` — that no send of a list of calls has failed.
* `Regroup.Collector.Turn`, `Regroup.Collector.Joins` — what a call does to the group of a key, and
  that a message joins it.

## Main results

* `Regroup.Collector.leads_after` — the channels behind a list of calls are where its sends lead.
* `Regroup.Collector.turn` — every call is a turn of one of three kinds.
* `Regroup.Collector.stored_induction` — what is true of new groups and kept by messages that join
  is true of every stored group.
* `Regroup.Collector.exists_lifetime` — every stored group is in a lifetime.
-/

namespace Regroup

variable {σ : Type}

/-! ## Channels that take what they are sent -/

namespace Transport

/-- Channels that take every message and remember the sends in order. -/
def recording : Transport (List Send) := ⟨fun made s => (none, made ++ [s])⟩

/-- Recording channels take everything. -/
lemma takes_recording (target : Target) : recording.Takes target :=
  fun made m => ⟨made ++ [⟨m, target⟩], rfl⟩

end Transport

/-- A plan does not fail whose targets all take what they are sent. -/
lemma failure_deliver {t : Transport σ} {plan : List Send} (h : ∀ x ∈ plan, t.Takes x.target)
    (state : σ) : (deliver t state plan).failure = none := by
  induction plan generalizing state with
  | nil => rfl
  | cons x plan ih =>
    obtain ⟨state', hs⟩ := h x List.mem_cons_self state x.message
    simp only [deliver, show t.send state x = (none, state') from hs]
    exact ih (fun y hy => h y (List.mem_cons_of_mem _ hy)) state'

namespace Collector

variable (c : Collector) (t : Transport σ) (key : Key)

/-! ## Runs -/

/-- The world of a collector that has not been called yet. -/
def start (channels : σ) : World σ := ⟨Holdings.empty c.settings.capacity, channels⟩

/-- The world behind a list of calls. -/
def after (w : World σ) (calls : List Call) : World σ := (c.runAll t w calls).1

@[simp] lemma after_nil (w : World σ) : c.after t w [] = w := rfl

@[simp] lemma after_cons (w : World σ) (call : Call) (calls : List Call) :
    c.after t w (call :: calls) = c.after t (c.perform t w call).world calls := rfl

/-- Calls made one after the other can be made in two parts. -/
lemma after_append (w : World σ) (front back : List Call) :
    c.after t w (front ++ back) = c.after t (c.after t w front) back := by
  induction front generalizing w with
  | nil => rfl
  | cons call front ih => exact ih _

/-- The last call is performed in the world behind the others. -/
lemma after_concat (w : World σ) (front : List Call) (call : Call) :
    c.after t w (front ++ [call]) = (c.perform t (c.after t w front) call).world :=
  after_append c t w front [call]

/-- What every call keeps is true behind every list of calls. -/
lemma after_induction {P : World σ → Prop}
    (hstep : ∀ w call, P w → P (c.perform t w call).world) {w : World σ} (hw : P w)
    (calls : List Call) : P (c.after t w calls) := by
  induction calls generalizing w with
  | nil => exact hw
  | cons call calls ih => exact ih (hstep w call hw)

/-- The store is valid behind every list of calls. -/
lemma valid_after {w : World σ} (hv : w.holdings.store.Valid) (calls : List Call) :
    (c.after t w calls).holdings.store.Valid :=
  c.after_induction t (P := fun w => w.holdings.store.Valid)
    (fun _ call h => c.valid_perform t h call) hv calls

/-- The store is valid behind every list of calls of a collector that has not been called yet. -/
lemma valid_after_start (channels : σ) (calls : List Call) :
    (c.after t (c.start channels) calls).holdings.store.Valid :=
  c.valid_after t (Store.valid_empty _) calls

/-- The capacity of the store is the one set, behind every list of calls. -/
lemma capacity_after_start (channels : σ) (calls : List Call) :
    (c.after t (c.start channels) calls).holdings.store.capacity = c.settings.capacity :=
  c.after_induction t (P := fun w => w.holdings.store.capacity = c.settings.capacity)
    (fun w call h => (c.capacity_perform t w call).trans h) rfl calls

/-- The group of a key, in a world. -/
abbrev groupIn (w : World σ) (key : Key) : Option Group := w.holdings.store.get? key

/-! ## What happens to the group of a key -/

/-- Whether the message is handed in under the key. -/
def IsFor (w : World σ) (key : Key) (m : Message) : Prop :=
  (c.keyRule.resolve w.holdings.issued m).1 = some key

instance (w : World σ) (m : Message) : Decidable (c.IsFor w key m) :=
  inferInstanceAs (Decidable ((c.keyRule.resolve w.holdings.issued m).1 = some key))

/-- The message that a call adds to the group of the key, none or one. -/
def accepted (w : World σ) : Call → List Message
  | .handle m now =>
    if c.IsFor w key m ∧ (c.handle w.holdings now m).1.verdict = .accepted then [m] else []
  | .close _ | .expire _ => []

/-- The messages that a call evicts from the group of the key. -/
def evicted (w : World σ) (call : Call) : List Message :=
  (c.accepted key w call).flatMap fun m =>
    ((groupIn w key).map (·.excess m)).getD []

/-- What is to be sent to the output path because a message is handed in under the key. -/
def released (w : World σ) : Call → List Send
  | .handle m now =>
    if c.IsFor w key m then (c.handle w.holdings now m).1.plan.filter (·.isOutput) else []
  | .close _ | .expire _ => []

/-- What handing in a message under the key sends to the output path, in order. -/
def sent (w : World σ) : Call → List Send
  | .handle m now =>
    if c.IsFor w key m then (c.perform t w (.handle m now)).delivered.filter (·.isOutput) else []
  | .close _ | .expire _ => []

/-- What is observed at each call, collected over a list of calls. -/
def collect {α : Type} (f : World σ → Call → List α) (w : World σ) : List Call → List α
  | [] => []
  | call :: calls => f w call ++ collect f (c.perform t w call).world calls

/-- The messages that have joined the group of the key, in the order of their arrival. -/
def history (w : World σ) (calls : List Call) : List Message :=
  c.collect t (c.accepted key) w calls

/-- The messages that have been evicted from the group of the key. -/
def evictions (w : World σ) (calls : List Call) : List Message :=
  c.collect t (c.evicted key) w calls

/-- The messages that have joined the group of the key and have not been evicted from it, in the
order of their arrival. -/
def kept (w : World σ) (calls : List Call) : List Message :=
  (c.history t key w calls).filter (· ∉ c.evictions t key w calls)

/-- What was to be sent to the output path because of messages handed in under the key. -/
def releases (w : World σ) (calls : List Call) : List Send :=
  c.collect t (c.released key) w calls

/-- What handing in messages under the key has sent to the output path, in order. -/
def outputs (w : World σ) (calls : List Call) : List Send :=
  c.collect t (c.sent t key) w calls

/-- Everything that is sent by a list of calls, in order. -/
def sends (w : World σ) (calls : List Call) : List Send :=
  c.collect t (fun w call => (c.perform t w call).delivered) w calls

/-- What is answered to calls, one after the other. -/
def answers (w : World σ) (calls : List Call) : List Answer :=
  (c.runAll t w calls).2.map (·.answer)

/-- What is observed at calls in two parts is what is observed at the first, and behind it at the
second. -/
lemma collect_append {α : Type} (f : World σ → Call → List α) (w : World σ)
    (front back : List Call) :
    c.collect t f w (front ++ back) =
      c.collect t f w front ++ c.collect t f (c.after t w front) back := by
  induction front generalizing w with
  | nil => rfl
  | cons first front ih => simp [collect, ih]

/-- What the last call adds is observed in the world behind the others. -/
lemma collect_concat {α : Type} (f : World σ → Call → List α) (w : World σ)
    (front : List Call) (call : Call) :
    c.collect t f w (front ++ [call]) =
      c.collect t f w front ++ f (c.after t w front) call := by
  rw [collect_append]
  simp [collect]

lemma history_append (w : World σ) (front back : List Call) :
    c.history t key w (front ++ back) =
      c.history t key w front ++ c.history t key (c.after t w front) back :=
  collect_append c t _ w front back

lemma history_concat (w : World σ) (front : List Call) (call : Call) :
    c.history t key w (front ++ [call]) =
      c.history t key w front ++ c.accepted key (c.after t w front) call :=
  collect_concat c t _ w front call

lemma evictions_concat (w : World σ) (front : List Call) (call : Call) :
    c.evictions t key w (front ++ [call]) =
      c.evictions t key w front ++ c.evicted key (c.after t w front) call :=
  collect_concat c t _ w front call

lemma releases_concat (w : World σ) (front : List Call) (call : Call) :
    c.releases t key w (front ++ [call]) =
      c.releases t key w front ++ c.released key (c.after t w front) call :=
  collect_concat c t _ w front call

lemma sends_concat (w : World σ) (front : List Call) (call : Call) :
    c.sends t w (front ++ [call]) =
      c.sends t w front ++ (c.perform t (c.after t w front) call).delivered :=
  collect_concat c t _ w front call

/-- What a call adds to the group of a key is the message that it hands in under it. -/
lemma mem_accepted {w : World σ} {call : Call} {m : Message} (h : m ∈ c.accepted key w call) :
    ∃ now, call = .handle m now ∧ c.IsFor w key m := by
  cases call with
  | close k => simp [accepted] at h
  | expire now => simp [accepted] at h
  | handle m' now =>
    simp only [accepted] at h
    split at h
    · rename_i hacc
      obtain rfl := List.mem_singleton.1 h
      exact ⟨now, rfl, hacc.1⟩
    · simp at h

/-- What has joined the group of a key was handed in under it. -/
lemma mem_history {w : World σ} {calls : List Call} {m : Message}
    (h : m ∈ c.history t key w calls) :
    (∃ now, Call.handle m now ∈ calls) ∧
      ∃ issued, (c.keyRule.resolve issued m).1 = some key := by
  induction calls generalizing w with
  | nil => simp [history, collect] at h
  | cons call calls ih =>
    rcases List.mem_append.1 h with h | h
    · obtain ⟨now, rfl, hfor⟩ := c.mem_accepted key h
      exact ⟨⟨now, List.mem_cons_self⟩, _, hfor⟩
    · obtain ⟨⟨now, hmem⟩, hres⟩ := ih h
      exact ⟨⟨now, List.mem_cons_of_mem _ hmem⟩, hres⟩

/-! ## One call -/

/-- What a call does to the group of a key. -/
inductive Turn (w : World σ) (call : Call) : Prop where
  /-- The group stays as it is. -/
  | idle
      (same : groupIn (c.perform t w call).world key = groupIn w key)
      (accepted : c.accepted key w call = [])
      (evicted : c.evicted key w call = [])
      (released : c.released key w call = [])
  /-- The group is closed early. -/
  | closed
      (early : ∀ m now, call ≠ .handle m now)
      (gone : groupIn (c.perform t w call).world key = none)
      (accepted : c.accepted key w call = [])
      (evicted : c.evicted key w call = [])
      (released : c.released key w call = [])
  /-- A message joins the group. -/
  | joined (m : Message) (now : Instant)
      (handed : call = .handle m now)
      (isFor : c.IsFor w key m)
      (wellFormed : m.isWellFormed = true)
      (welcome :
        (w.holdings.store.groupOf key now).objection? m c.settings.strictSize = none)
      (next : groupIn (c.perform t w call).world key =
        (c.receive (w.holdings.store.groupOf key now) m).1)
      (accepted : c.accepted key w call = [m])
      (evicted : c.evicted key w call = (w.holdings.store.groupOf key now).excess m)
      (plan : (c.handle w.holdings now m).1.plan =
        (c.receive (w.holdings.store.groupOf key now) m).2)
      (verdict : (c.handle w.holdings now m).1.verdict = .accepted)

/-- Closing a group changes the look-up of its key only. -/
lemma groupIn_perform_close (w : World σ) (k : Key) :
    groupIn (c.perform t w (.close k)).world key = if k = key then none else groupIn w key := by
  show (c.close w.holdings.store k).1.get? key = _
  rw [close_fst, Store.get?_remove_eq]

/-- Every call is a turn of one of three kinds. -/
theorem turn {w : World σ} (hv : w.holdings.store.Valid) (call : Call) :
    c.Turn t key w call := by
  cases call with
  | close k =>
    have hget := c.groupIn_perform_close t key w k
    by_cases hk : k = key
    · rw [if_pos hk] at hget
      exact .closed (by simp) hget rfl rfl rfl
    · rw [if_neg hk] at hget
      exact .idle hget rfl rfl rfl
  | expire now =>
    rcases (c.expire_fst hv now).2 key with h | h
    · exact .idle h rfl rfl rfl
    · exact .closed (by simp) h rfl rfl rfl
  | handle m now =>
    cases c.outcome_handle hv now m with
    | refused reason verdict store plan =>
      have hacc : c.accepted key w (.handle m now) = [] := if_neg fun h => verdict h.2
      refine .idle ?_ hacc (by simp [evicted, hacc]) ?_
      · show (c.handle w.holdings now m).1.store.get? key = _
        rw [store]
      · simp only [released]
        split
        · rw [List.filter_eq_nil_iff, plan]
          intro x hx
          simp [c.isOutput_of_mem_refusalPlan hx]
        · rfl
    | accepted k resolved wellFormed welcome verdict plan valid store =>
      by_cases hk : k = key
      · subst hk
        have hacc : c.accepted k w (.handle m now) = [m] := if_pos ⟨resolved, verdict⟩
        refine .joined m now rfl resolved wellFormed welcome ?_ hacc ?_ plan verdict
        · show (c.handle w.holdings now m).1.store.get? k = _
          rw [store, if_pos rfl]
        · rw [evicted, hacc, List.flatMap_singleton]
          unfold groupIn Store.groupOf
          cases hg : w.holdings.store.get? k with
          | some g => rfl
          | none =>
            -- a new group has nothing to evict
            simp only [Option.map_none, Option.getD_none, Group.excess, Group.new]
            split <;> rfl
      · have hfor : ¬ c.IsFor w key m := fun h => hk (Option.some.inj (resolved.symm.trans h))
        have hacc : c.accepted key w (.handle m now) = [] := if_neg fun h => hfor h.1
        refine .idle ?_ hacc (by simp [evicted, hacc]) (if_neg hfor)
        show (c.handle w.holdings now m).1.store.get? key = _
        rw [store, if_neg hk]

/-- A message that is handed in joins the group of the key. -/
structure Joins (w : World σ) (m : Message) (now : Instant) : Prop where
  isFor : c.IsFor w key m
  wellFormed : m.isWellFormed = true
  welcome : (w.holdings.store.groupOf key now).objection? m c.settings.strictSize = none
  /-- What becomes of the group is what the message leaves of it. -/
  next : groupIn (c.perform t w (.handle m now)).world key =
    (c.receive (w.holdings.store.groupOf key now) m).1
  /-- What is planned is what is to be sent then. -/
  plan : (c.handle w.holdings now m).1.plan =
    (c.receive (w.holdings.store.groupOf key now) m).2

/-- A message that a call adds to the group of the key joins it. -/
lemma joins_of_accepted {w : World σ} (hv : w.holdings.store.Valid) {m : Message}
    {now : Instant} (h : c.accepted key w (.handle m now) = [m]) : c.Joins t key w m now := by
  cases c.turn t key hv (.handle m now) with
  | idle _ acc => rw [h] at acc; simp at acc
  | closed early => exact absurd rfl (early m now)
  | joined m' now' handed isFor wellFormed welcome next _ _ plan =>
    obtain ⟨rfl, rfl⟩ := Call.handle.inj handed
    exact ⟨isFor, wellFormed, welcome, next, plan⟩

/-- Handing in a message leaves the groups of all other keys alone. -/
lemma groupIn_perform_of_not_isFor {w : World σ} (hv : w.holdings.store.Valid) {m : Message}
    (h : ¬ c.IsFor w key m) (now : Instant) :
    groupIn (c.perform t w (.handle m now)).world key = groupIn w key := by
  cases c.turn t key hv (.handle m now) with
  | idle same => exact same
  | closed early => exact absurd rfl (early m now)
  | joined m' now' handed isFor =>
    obtain ⟨rfl, rfl⟩ := Call.handle.inj handed
    exact absurd isFor h

/-! ## Every stored group -/

section Stored

variable {P : Group → Prop} (hnew : ∀ key now, P (.new key now))
  (hreceive : ∀ g m left, P g → g.objection? m c.settings.strictSize = none →
    m.isWellFormed = true → (c.receive g m).1 = some left → P left)

include hnew hreceive

/-- A call keeps true of all stored groups what is true of a new one, and what a message that joins
keeps. -/
lemma stored_perform {w : World σ} (hv : w.holdings.store.Valid)
    (h : ∀ key g, groupIn w key = some g → P g) (call : Call) :
    ∀ key g, groupIn (c.perform t w call).world key = some g → P g := by
  intro key g hg
  cases c.turn t key hv call with
  | idle same => exact h key g (same.symm.trans hg)
  | closed _ gone => rw [gone] at hg; simp at hg
  | joined m now _ _ wellFormed welcome next =>
    have hmet : P (w.holdings.store.groupOf key now) :=
      Store.groupOf_induction (h key) fun _ => hnew key now
    exact hreceive _ m g hmet welcome wellFormed (next.symm.trans hg)

/-- What is true of a new group, and what a message that joins keeps, is true of every group that is
stored behind a list of calls of a collector that has not been called yet. -/
theorem stored_induction (channels : σ) (calls : List Call) :
    ∀ key g, groupIn (c.after t (c.start channels) calls) key = some g → P g := by
  have hstart : ∀ key g, groupIn (c.start channels) key = some g → P g := by
    intro key g hg
    rw [show groupIn (c.start channels) key = none from rfl] at hg
    simp at hg
  exact (c.after_induction t
    (P := fun w => (∀ key g, groupIn w key = some g → P g) ∧ w.holdings.store.Valid)
    (fun _ call h => ⟨c.stored_perform t hnew hreceive h.2 h.1 call, c.valid_perform t h.2 call⟩)
    ⟨hstart, Store.valid_empty _⟩ calls).1

end Stored

/-! ## Where the channels are -/

/-- Plans that are carried out lead to where the sends that they make lead. -/
lemma leads_deliverEach (state : σ) (plans : List (List Send)) :
    t.Leads state (deliverEach t state plans).2.1 (deliverEach t state plans).1 := by
  induction plans generalizing state with
  | nil => exact .nil state
  | cons plan plans ih => exact (leads_deliver t state plan).append (ih _)

/-- A call leads the channels to where the sends that it makes lead. -/
lemma leads_perform (w : World σ) (call : Call) :
    t.Leads w.channels (c.perform t w call).delivered (c.perform t w call).world.channels := by
  cases call with
  | handle m now => exact leads_deliver t w.channels _
  | close key => exact leads_deliver t w.channels _
  | expire now => exact leads_deliverEach t w.channels _

/-- **The channels behind calls are where the sends that the calls make lead.**

**Proof sketch.** Induction on the calls: each leads the channels on from where those before it have
led them. -/
theorem leads_after (w : World σ) (calls : List Call) :
    t.Leads w.channels (c.sends t w calls) (c.after t w calls).channels := by
  induction calls generalizing w with
  | nil => exact .nil w.channels
  | cons call calls ih => exact (c.leads_perform t w call).append (ih _)

/-- The sends have been made by the calls, in order and perhaps with others in between, and all
that the calls have sent has led the channels to where they are. -/
structure HasSent (w : World σ) (calls : List Call) (sends : List Send) : Prop where
  /-- The sends are among all that have been made. -/
  among : sends.Sublist (c.sends t w calls)
  /-- The channels have taken all that has been sent. -/
  leads : t.Leads w.channels (c.sends t w calls) (c.after t w calls).channels

/-- What is observed at each call of the sends that it makes has been sent. -/
lemma hasSent_collect {f : World σ → Call → List Send}
    (hf : ∀ w call, (f w call).Sublist (c.perform t w call).delivered) (w : World σ)
    (calls : List Call) : c.HasSent t w calls (c.collect t f w calls) where
  among := by
    induction calls generalizing w with
    | nil => exact .slnil
    | cons call calls ih => exact (hf w call).append (ih _)
  leads := c.leads_after t w calls

/-- What handing in messages under a key has sent to the output path has been sent. -/
lemma hasSent_outputs (w : World σ) (calls : List Call) :
    c.HasSent t w calls (c.outputs t key w calls) := by
  refine c.hasSent_collect t (fun w call => ?_) w calls
  cases call with
  | handle m now =>
    simp only [sent]
    split
    · exact List.filter_sublist
    · exact List.nil_sublist _
  | close k => exact List.nil_sublist _
  | expire now => exact List.nil_sublist _

/-! ## Sends that succeed -/

/-- Handing in a message delivers its plan as far as that goes. -/
lemma delivered_handle (w : World σ) (m : Message) (now : Instant) :
    (c.perform t w (.handle m now)).delivered =
      (deliver t w.channels (c.handle w.holdings now m).1.plan).delivered := rfl

/-- Handing in a message answers why it is refused, or why a send has failed, if so. -/
lemma answer_handle (w : World σ) (m : Message) (now : Instant) :
    (c.perform t w (.handle m now)).answer =
      .done ((c.handle w.holdings now m).1.verdict.failure?.or
        ((deliver t w.channels (c.handle w.holdings now m).1.plan).failure.map .dispatch)) := rfl

/-- Closing a group delivers its plan as far as that goes. -/
lemma delivered_close (w : World σ) (k : Key) :
    (c.perform t w (.close k)).delivered =
      (deliver t w.channels (c.close w.holdings.store k).2).delivered := rfl

/-- Closing a group answers why a send has failed, if so. -/
lemma answer_close (w : World σ) (k : Key) :
    (c.perform t w (.close k)).answer =
      .done ((deliver t w.channels (c.close w.holdings.store k).2).failure.map .dispatch) := rfl

/-- No send of the calls has failed: no call of them answers that one has. -/
def Delivers (w : World σ) (calls : List Call) : Prop :=
  ∀ p ∈ (c.runAll t w calls).2, ∀ cause, p.answer ≠ .done (some (.dispatch cause))

/-- No send fails where the channels take everything. -/
lemma delivers_of_takes (h : ∀ target, t.Takes target) (w : World σ) (calls : List Call) :
    c.Delivers t w calls := by
  induction calls generalizing w with
  | nil => simp [Delivers, runAll]
  | cons call calls ih =>
    intro p hp cause
    rcases List.mem_cons.1 hp with rfl | hp
    · cases call with
      | expire now => simp [perform]
      | close k =>
        rw [answer_close, failure_deliver (fun x _ => h x.target)]
        simp
      | handle m now =>
        rw [answer_handle, failure_deliver (fun x _ => h x.target)]
        cases (c.handle w.holdings now m).1.verdict <;> simp [Verdict.failure?]
    · exact ih _ p hp cause

/-- What is delivered was planned. -/
lemma mem_plan_of_mem_delivered {state : σ} {plan : List Send} {x : Send}
    (h : x ∈ (deliver t state plan).delivered) : x ∈ plan := by
  rw [← delivered_append_left t state plan]
  exact List.mem_append_left _ h

/-- A plan whose sends all succeed is delivered as it is. -/
lemma delivered_eq_of_failure_eq_none {state : σ} {plan : List Send}
    (h : (deliver t state plan).failure = none) : (deliver t state plan).delivered = plan := by
  have hleft := (failure_eq_none_iff t state plan).1 h
  simpa [hleft] using delivered_append_left t state plan

/-- Channels that take everything are sent all of a plan. -/
lemma delivered_of_takes (h : ∀ target, t.Takes target) (state : σ) (plan : List Send) :
    (deliver t state plan).delivered = plan :=
  delivered_eq_of_failure_eq_none t (failure_deliver (fun x _ => h x.target) state)

/-- Where no send fails, what was to be sent to the output path has been sent. -/
lemma outputs_eq_releases {w : World σ} (hv : w.holdings.store.Valid) {calls : List Call}
    (h : c.Delivers t w calls) : c.outputs t key w calls = c.releases t key w calls := by
  induction calls generalizing w with
  | nil => rfl
  | cons call calls ih =>
    have hfirst : ∀ cause, (c.perform t w call).answer ≠ .done (some (.dispatch cause)) :=
      h _ List.mem_cons_self
    show c.sent t key w call ++ c.outputs t key _ calls =
      c.released key w call ++ c.releases t key _ calls
    rw [ih (c.valid_perform t hv call) fun p hp => h p (List.mem_cons_of_mem _ hp)]
    congr 1
    cases call with
    | close k => rfl
    | expire now => rfl
    | handle m now =>
      simp only [sent, released]
      rw [delivered_handle]
      cases hf : (deliver t w.channels (c.handle w.holdings now m).1.plan).failure with
      | none => rw [delivered_eq_of_failure_eq_none t hf]
      | some cause =>
        -- only what is sent for a refused message can fail without the answer saying so
        have hplan : ∀ x ∈ (c.handle w.holdings now m).1.plan, x.isOutput = false := by
          cases c.outcome_handle hv now m with
          | refused reason verdict store plan =>
            intro x hx
            rw [plan] at hx
            exact c.isOutput_of_mem_refusalPlan hx
          | accepted k resolved wellFormed welcome verdict plan valid store =>
            refine absurd ?_ (hfirst cause)
            rw [answer_handle, verdict, hf]
            rfl
        have hnil : ∀ l : List Send, (∀ x ∈ l, x ∈ (c.handle w.holdings now m).1.plan) →
            l.filter (·.isOutput) = [] := by
          intro l hl
          rw [List.filter_eq_nil_iff]
          intro x hx
          simp [hplan x (hl x hx)]
        rw [hnil _ fun x hx => hx, hnil _ fun x hx => mem_plan_of_mem_delivered t hx]

/-! ## Lifetimes -/

/-- The calls lie within one lifetime of the group of the key, from its beginning: the key has no
group before them, and it has one behind each of them but the last. -/
structure Lifetime (w : World σ) (calls : List Call) : Prop where
  absent : groupIn w key = none
  present : ∀ front call rest, calls = front ++ call :: rest → rest ≠ [] →
    groupIn (c.after t w (front ++ [call])) key ≠ none

variable {c t key}

/-- Before its first call a lifetime is empty. -/
lemma lifetime_nil {w : World σ} (h : groupIn w key = none) : c.Lifetime t key w [] where
  absent := h
  present front call rest he := by simp at he

/-- A lifetime goes on as long as the group is there. -/
lemma Lifetime.concat {w : World σ} {front : List Call} (h : c.Lifetime t key w front)
    (hp : front ≠ [] → groupIn (c.after t w front) key ≠ none) (call : Call) :
    c.Lifetime t key w (front ++ [call]) where
  absent := h.absent
  present := by
    intro front' call' rest he hrest
    obtain ⟨init, last, rfl⟩ := List.eq_nil_or_concat' rest |>.resolve_left hrest
    rw [← List.cons_append, ← List.append_assoc] at he
    obtain ⟨rfl, -⟩ := List.append_inj' he rfl
    by_cases hinit : init = []
    · subst hinit
      exact hp (by simp)
    · exact h.present front' call' init rfl hinit

/-- What comes before the last call of a lifetime is one. -/
lemma Lifetime.front {w : World σ} {front : List Call} {call : Call}
    (h : c.Lifetime t key w (front ++ [call])) : c.Lifetime t key w front where
  absent := h.absent
  present := by
    rintro front' call' rest rfl hrest
    exact h.present front' call' (rest ++ [call]) (by simp) (by simp)

/-- Before its last call the group of a lifetime is there, unless that call is the first. -/
lemma Lifetime.eq_nil_of_absent {w : World σ} {front : List Call} {call : Call}
    (h : c.Lifetime t key w (front ++ [call]))
    (ha : groupIn (c.after t w front) key = none) : front = [] := by
  by_contra hne
  obtain ⟨init, last, rfl⟩ := List.eq_nil_or_concat' front |>.resolve_left hne
  exact h.present init last [call] (by simp) (by simp) ha

/-- Every group that is stored behind a list of calls is in a lifetime that began in them.

**Proof sketch.** Induction on the calls, the last one first. If the group was there before the
last call, its lifetime goes on; otherwise the last call has opened it. -/
theorem exists_lifetime {w : World σ} (h : groupIn w key = none) (calls : List Call)
    (hp : groupIn (c.after t w calls) key ≠ none) :
    ∃ before life, calls = before ++ life ∧ c.Lifetime t key (c.after t w before) life := by
  induction calls using List.reverseRecOn with
  | nil => exact absurd h hp
  | append_singleton front call ih =>
    by_cases hf : groupIn (c.after t w front) key = none
    · refine ⟨front, [call], rfl, hf, ?_⟩
      intro front' call' rest he hrest
      have := congrArg List.length he
      simp only [List.length_append, List.length_cons, List.length_nil] at this
      exact absurd (List.length_eq_zero_iff.1 (by omega)) hrest
    · obtain ⟨before, life, rfl, hl⟩ := ih hf
      refine ⟨before, life ++ [call], by simp, hl.concat (fun _ => ?_) call⟩
      rwa [← after_append]

/-- Every call lies in a lifetime that began before it, or with it. -/
theorem exists_lifetime_concat {w : World σ} (h : groupIn w key = none) (calls : List Call)
    (call : Call) :
    ∃ before life, calls = before ++ life ∧
      c.Lifetime t key (c.after t w before) (life ++ [call]) := by
  by_cases hp : groupIn (c.after t w calls) key = none
  · exact ⟨calls, [], by simp, (lifetime_nil hp).concat (by simp) call⟩
  · obtain ⟨before, life, rfl, hl⟩ := exists_lifetime h calls hp
    rw [after_append] at hp
    exact ⟨before, life, rfl, hl.concat (fun _ => hp) call⟩

end Collector

end Regroup
