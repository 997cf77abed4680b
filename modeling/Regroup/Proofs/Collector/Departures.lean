import Regroup.Proofs.Collector.Log
import Regroup.Proofs.Collector.Succession

/-!
# Groups that leave as a whole

Where groups are not released run by run, nothing leaves a group while it is open. Its messages
leave it all at once, in the call that finds it ready or closes it early, and nothing leaves the
mark that may stay.

## Main definitions

* `Regroup.Collector.departed`, `Regroup.Collector.departures` — what a call, or a list of calls,
  releases from the group of a key or discards because the group is closed.
* `Regroup.Collector.Departs` — what leaves the group in a call.
* `Regroup.Collector.LeavesWhole` — what has left the group in a lifetime.

## Main results

* `Regroup.Collector.departs` — every call is one of three kinds.
* `Regroup.Collector.leavesWhole_of_lifetime` — in a lifetime a group leaves as a whole.
-/

namespace Regroup

variable {σ : Type}

namespace Collector

variable (c : Collector) (t : Transport σ) (key : Key)

/-! ## One call -/

/-- The sends that a call makes for what leaves the group of the key, in order: what it releases,
and what it discards because the group is closed early. A message that is handed in and turned away
has not been in the group. -/
def departed (w : World σ) (call : Call) : List Send :=
  match call with
  | .handle _ _ => c.emitted t key w call
  | .close _ | .expire _ => ofKey key (c.log t w call)

/-- The sends that calls make for what leaves the group of the key, in order. -/
def departures (w : World σ) (calls : List Call) : List Send :=
  c.collect t (c.departed t key) w calls

lemma departures_concat (w : World σ) (front : List Call) (call : Call) :
    c.departures t key w (front ++ [call]) =
      c.departures t key w front ++ c.departed t key (c.after t w front) call :=
  collect_concat c t _ w front call

/-- What leaves the group of the key has been sent. -/
lemma hasSent_departures (w : World σ) (calls : List Call) :
    c.HasSent t w calls (c.departures t key w calls) := by
  refine c.hasSent_collect t (fun w call => ?_) w calls
  have hkeyed : (ofKey key (c.log t w call)).Sublist (c.perform t w call).delivered := by
    rw [← map_snd_log]
    exact List.filter_sublist.map _
  cases call with
  | handle m now => exact List.filter_sublist.trans hkeyed
  | close k => exact hkeyed
  | expire now => exact hkeyed

/-- Of what leaves the group the output path gets what is sent to it for the group. -/
lemma filter_isOutput_departures (w : World σ) (calls : List Call) :
    (c.departures t key w calls).filter (·.isOutput) = c.emissions t key w calls := by
  have hcall (w : World σ) (call : Call) :
      (c.departed t key w call).filter (·.isOutput) = c.emitted t key w call := by
    cases call <;> simp [departed, emitted]
  induction calls generalizing w with
  | nil => rfl
  | cons call calls ih =>
    show (c.departed t key w call ++ c.departures t key _ calls).filter _ =
      c.emitted t key w call ++ c.emissions t key _ calls
    rw [List.filter_append, hcall, ih]

/-- What leaves the group of a key in a call, and what becomes of the group. -/
inductive Departs (w : World σ) (call : Call) : Prop where
  /-- Nothing leaves the group, and it stays as it is. -/
  | quiet
      (same : groupIn (c.perform t w call).world key = groupIn w key)
      (accepted : c.accepted key w call = [])
      (nothing : c.departed t key w call = [])
  /-- The group is closed early. -/
  | closed (g : Group) (state : σ)
      (stored : groupIn w key = some g)
      (gone : groupIn (c.perform t w call).world key = none)
      (accepted : c.accepted key w call = [])
      (sends : c.departed t key w call =
        (deliver t state (c.outgoingPlan (c.outOfClosed g))).delivered)
  /-- A message joins the group. -/
  | joined (m : Message) (now : Instant)
      (wellFormed : m.isWellFormed = true)
      (welcome :
        (w.holdings.store.groupOf key now).objection? m c.settings.strictSize = none)
      (next : groupIn (c.perform t w call).world key =
        (c.receive (w.holdings.store.groupOf key now) m).1)
      (accepted : c.accepted key w call = [m])
      (sends : c.departed t key w call = (deliver t w.channels
        (c.receive (w.holdings.store.groupOf key now) m).2).delivered.filter (·.isOutput))

/-- Every call lets nothing leave the group of a key, or closes it, or lets a message join it. -/
theorem departs {w : World σ} (hv : w.holdings.store.Valid) (call : Call) :
    c.Departs t key w call := by
  cases call with
  | close k =>
    cases (c.closes t key (by simp) : c.Closes t key w (.close k)) with
    | spared same nothing => exact .quiet same rfl nothing
    | closed g state stored gone sends => exact .closed g state stored gone rfl sends
  | expire now =>
    cases (c.closes t key (by simp) : c.Closes t key w (.expire now)) with
    | spared same nothing => exact .quiet same rfl nothing
    | closed g state stored gone sends => exact .closed g state stored gone rfl sends
  | handle m now =>
    cases c.emits t key hv (.handle m now) with
    | quiet same acc emitted => exact .quiet same acc emitted
    | closed _ early => exact absurd rfl (early m now)
    | joined x now' handed _ _ _ joins =>
      obtain ⟨rfl, rfl⟩ := Call.handle.inj handed
      obtain ⟨isFor, wellFormed, welcome, next, plan⟩ := c.joins_of_accepted t key hv joins
      refine .joined m now wellFormed welcome next joins ?_
      rw [← plan, departed, emitted_handle, if_pos isFor, delivered_handle]

/-! ## A lifetime -/

variable {c t key} {w : World σ}

variable (c t) in
/-- Sends by which a group leaves, as far as they are made: what it releases when it is ready, or
what it releases and discards when it is closed early. -/
inductive LeavesBy (g : Group) (sends : List Send) : Prop where
  /-- The group is ready. -/
  | ready (state : σ)
      (sends_eq : sends =
        (deliver t state (c.outgoingPlan (c.outOfReady g))).delivered.filter (·.isOutput))
  /-- The group is closed early. -/
  | closed (state : σ)
      (sends_eq : sends = (deliver t state (c.outgoingPlan (c.outOfClosed g))).delivered)

variable (c t key) in
/-- In a lifetime a group gathers what joins it and is not evicted, or all of that has left it. -/
inductive LeavesWhole (w : World σ) (calls : List Call) : Prop where
  /-- Nothing has left the group. -/
  | gathering (g : Group)
      (stored : groupIn (c.after t w calls) key = some g)
      (follows : c.Follows g (c.history t key w calls))
      (held : g.messages = c.kept t key w calls)
      (nothing : c.departures t key w calls = [])
  /-- The group has left with all that it held, and at most a mark is there. -/
  | left (g : Group)
      (ended : ∀ mark, groupIn (c.after t w calls) key = some mark → c.IsMark mark)
      (held : g.messages = c.kept t key w calls)
      (sends : c.LeavesBy t g (c.departures t key w calls))

/-- Nothing leaves a group that holds nothing. -/
lemma delivered_outOfClosed_of_isEmpty {g : Group} (h : g.messages = []) (state : σ) :
    (deliver t state (c.outgoingPlan (c.outOfClosed g))).delivered = [] := by
  rw [c.outOfClosed_of_isEmpty (g.isEmpty_iff.2 h), outgoingPlan_nil]
  rfl

/-- What joins no group in a call is evicted from none and changes nothing that is kept. -/
lemma kept_concat_of_accepted_eq_nil {front : List Call} {call : Call}
    (h : c.accepted key (c.after t w front) call = []) :
    c.kept t key w (front ++ [call]) = c.kept t key w front := by
  have hevicted : c.evicted key (c.after t w front) call = [] := by rw [evicted, h]; rfl
  rw [kept, kept, history_concat, evictions_concat, h, hevicted, List.append_nil, List.append_nil]

/-- A message that joins a group is gathered, or lets the group leave as a whole. -/
private lemma LeavesWhole.concat_of_joined (hp : c.processor.releasesRuns = false)
    (hv : w.holdings.store.Valid) {front : List Call} {call : Call} {m : Message} {now : Instant}
    (hl : c.Lifetime t key w (front ++ [call])) (ih : c.LeavesWhole t key w front)
    (wellFormed : m.isWellFormed = true)
    (welcome : ((c.after t w front).holdings.store.groupOf key now).objection? m
      c.settings.strictSize = none)
    (next : groupIn (c.perform t (c.after t w front) call).world key =
      (c.receive ((c.after t w front).holdings.store.groupOf key now) m).1)
    (acc : c.accepted key (c.after t w front) call = [m])
    (sends : c.departed t key (c.after t w front) call = (deliver t (c.after t w front).channels
      (c.receive ((c.after t w front).holdings.store.groupOf key now) m).2).delivered.filter
        (·.isOutput)) :
    c.LeavesWhole t key w (front ++ [call]) := by
  have hwel := Group.welcomes_of_objection?_eq_none welcome
  have hfit : ∀ (calls : List Call) m now, Call.handle m now ∈ calls → c.Fits m :=
    fun _ m _ _ => fits_of_whole hp m
  -- an open group has not sent anything
  have hnothing : c.departures t key w front = [] := by
    cases hg : groupIn (c.after t w front) key with
    | none => rw [hl.eq_nil_of_absent hg]; rfl
    | some g =>
      cases ih with
      | gathering _ _ _ _ nothing => exact nothing
      | left _ ended =>
        have hcompleted := (ended g hg).completed
        rw [Store.groupOf_of_get? hg] at hwel
        rw [hwel.isOpen] at hcompleted
        simp at hcompleted
  have hprov := Processor.isProvided_of_whole hp
  have hfollows := (follows_groupOf hprov hv hl (hfit front) welcome).join hwel wellFormed
  have hhistory : c.history t key w (front ++ [call]) = c.history t key w front ++ [m] := by
    rw [history_concat, acc]
  rw [← hhistory] at hfollows
  have hheld := (hfollows.messages_eq_filter hp).trans (kept_eq hprov hv hl (hfit _)).symm
  have hdepartures : c.departures t key w (front ++ [call]) =
      c.departed t key (c.after t w front) call := by
    rw [departures_concat, hnothing, List.nil_append]
  rw [← after_concat] at next
  unfold receive at next sends
  generalize ((c.after t w front).holdings.store.groupOf key now).join m = g at *
  cases hready : c.releaseRule.isReady g with
  | false =>
    rw [hready, if_neg (by simp)] at next sends
    exact .gathering g next hfollows hheld (hdepartures.trans sends)
  | true =>
    rw [hready, if_pos rfl] at next sends
    rw [settle_snd] at sends
    refine .left g (fun mark hmark => ?_) hheld (.ready _ (hdepartures.trans sends))
    exact isMark_settle_of_whole hp hfollows (next.symm.trans hmark)

/-- **Where groups are not released run by run a group leaves as a whole**, in any lifetime,
whatever becomes of the sends.

**Proof sketch.** Induction on the calls of the lifetime, the last one first. Nothing has left an
open group, so it is in step and holds all that has joined it and has not been evicted. It leaves
with that when a message makes it ready or when it is closed, and nothing leaves a mark. -/
theorem leavesWhole_of_lifetime (hp : c.processor.releasesRuns = false)
    (hv : w.holdings.store.Valid) {calls : List Call} (hl : c.Lifetime t key w calls) :
    c.LeavesWhole t key w calls := by
  induction calls using List.reverseRecOn with
  | nil =>
    refine .left (.new key default) (fun mark hmark => ?_) rfl
      (.closed w.channels (delivered_outOfClosed_of_isEmpty rfl _).symm)
    rw [after_nil, hl.absent] at hmark
    simp at hmark
  | append_singleton front call ih =>
    have ih := ih hl.front
    cases c.departs t key (c.valid_after t hv front) call with
    | joined m now wellFormed welcome next acc sends =>
      exact ih.concat_of_joined hp hv hl wellFormed welcome next acc sends
    | quiet same acc nothing =>
      have hdepartures : c.departures t key w (front ++ [call]) = c.departures t key w front := by
        rw [departures_concat, nothing, List.append_nil]
      have hkept := kept_concat_of_accepted_eq_nil acc
      rw [← after_concat] at same
      cases ih with
      | gathering g stored follows held none =>
        refine .gathering g (same.trans stored) ?_ (held.trans hkept.symm) (hdepartures.trans none)
        rwa [history_concat, acc, List.append_nil]
      | left g ended held sends =>
        exact .left g (fun mark hmark => ended mark (same.symm.trans hmark)) (held.trans hkept.symm)
          (hdepartures ▸ sends)
    | closed g state stored gone acc sends =>
      have hkept := kept_concat_of_accepted_eq_nil acc
      have hended : ∀ mark, groupIn (c.after t w (front ++ [call])) key = some mark →
          c.IsMark mark := by
        intro mark hmark
        rw [after_concat, gone] at hmark
        simp at hmark
      cases ih with
      | gathering g' stored' _ held none =>
        obtain rfl : g = g' := Option.some.inj (stored.symm.trans stored')
        refine .left g hended (held.trans hkept.symm) (.closed state ?_)
        rw [departures_concat, none, List.nil_append, sends]
      | left g' ended held sends' =>
        rw [delivered_outOfClosed_of_isEmpty (ended g stored).messages_eq] at sends
        refine .left g' hended (held.trans hkept.symm) ?_
        rwa [departures_concat, sends, List.append_nil]

end Collector

end Regroup
