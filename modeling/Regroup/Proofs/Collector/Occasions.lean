import Regroup.Proofs.Collector.Settled

/-!
# Runs that are changed from outside

Between two calls of a collector its channels can change without it: messages are received from
them, they are closed, others take their place. Policies that keep a state of their own can decide
otherwise at every call. Both are told by what a call finds when it is made. Within one call no
policy is asked twice for the same group, so there a policy with a state decides as some function of
the group does.

What is held behind such calls is valid, and has been handed in. Where only the channels change, the
calls come to the same as calls of which each finds the channels as the one before has left them,
for channels that answer the sends from a list. So what is true of all runs, whatever becomes of the
sends, is true where the channels change as well.

## Main definitions

* `Regroup.Policies`, `Regroup.Occasion` — the policies of a collector, and a call with what it
  finds.
* `Regroup.Collector.meet`, `Regroup.Collector.heldAfter` — such a call, and what is held behind a
  list of them.
* `Regroup.Transport.scripted` — channels that answer the sends from a list.

## Main results

* `Regroup.Collector.valid_heldAfter`, `Regroup.Collector.exists_call_of_held` — what is held is
  valid, and what is buffered has been handed in.
* `Regroup.Collector.heldAfter_eq_after` — where the policies stay, the same is held as behind the
  calls of a run.
* `Regroup.Collector.exists_scripted_run` — where the policies stay, the calls come to the same as
  those of some run.
-/

namespace Regroup

variable {σ τ : Type}

/-- The policies of a collector. -/
structure Policies where
  /-- Which group a message joins. -/
  keyRule : KeyRule
  /-- When a group is ready. -/
  releaseRule : ReleaseRule
  /-- What a ready group emits. -/
  processor : Processor

/-- A call of a collector together with what it finds. -/
structure Occasion (σ : Type) where
  /-- The policies, as they decide at this call. -/
  policies : Policies
  /-- The state of the channels, as it is before this call. -/
  channels : σ
  /-- The call. -/
  call : Call

/-! ## Channels that answer from a list -/

/-- Channels that answer every send from a list, and take it where the list is used up. -/
def Transport.scripted : Transport (List (Option DispatchFailure)) :=
  ⟨fun script _ => (script.head?.join, script.tail)⟩

@[simp] lemma Transport.send_scripted (outcome : Option DispatchFailure)
    (rest : List (Option DispatchFailure)) (s : Send) :
    scripted.send (outcome :: rest) s = (outcome, rest) := rfl

/-- A delivery goes as far, and fails alike, in channels that answer its sends from a list of what
was answered to them.

**Proof sketch.** Induction on the plan: each send uses up one answer. -/
lemma exists_scripted_deliver (t : Transport σ) (state : σ) (plan : List Send) :
    ∃ script, ∀ rest, deliver .scripted (script ++ rest) plan =
      { deliver t state plan with state := rest } := by
  induction plan generalizing state with
  | nil => exact ⟨[], fun rest => rfl⟩
  | cons s plan ih =>
    simp only [deliver]
    rcases t.send state s with ⟨_ | failure, next⟩
    · obtain ⟨script, hscript⟩ := ih next
      exact ⟨none :: script, fun rest => by simp [hscript]⟩
    · exact ⟨[some failure], fun rest => rfl⟩

/-- The same goes for several plans. -/
lemma exists_scripted_deliverEach (t : Transport σ) (state : σ) (plans : List (List Send)) :
    ∃ script, ∀ rest, deliverEach .scripted (script ++ rest) plans =
      (rest, (deliverEach t state plans).2) := by
  induction plans generalizing state with
  | nil => exact ⟨[], fun rest => rfl⟩
  | cons plan plans ih =>
    obtain ⟨first, hfirst⟩ := exists_scripted_deliver t state plan
    obtain ⟨later, hlater⟩ := ih (deliver t state plan).state
    refine ⟨first ++ later, fun rest => ?_⟩
    simp only [deliverEach, List.append_assoc, hfirst, hlater]

/-- What has come of a call but the channels: what is held, the sends made, the answer, and the
group that the call has opened. -/
def Performed.outcome (p : Performed σ) : Holdings × List Send × Answer × Option Group :=
  (p.world.holdings, p.delivered, p.answer, p.opened)

namespace Collector

variable (c : Collector) (t : Transport σ)

/-- A call comes to the same in channels that answer its sends from a list of what was answered to
them, and uses that list up. -/
lemma exists_scripted_perform (w : World σ) (call : Call) :
    ∃ script, ∀ rest, c.perform .scripted ⟨w.holdings, script ++ rest⟩ call =
      let p := c.perform t w call
      ⟨⟨p.world.holdings, rest⟩, p.delivered, p.answer, p.opened⟩ := by
  cases call with
  | handle m now =>
    obtain ⟨script, hscript⟩ :=
      exists_scripted_deliver t w.channels (c.handle w.holdings now m).1.plan
    exact ⟨script, fun rest => by simp only [perform, hscript]⟩
  | close key =>
    obtain ⟨script, hscript⟩ :=
      exists_scripted_deliver t w.channels (c.close w.holdings.store key).2
    exact ⟨script, fun rest => by simp only [perform, hscript]⟩
  | expire now =>
    obtain ⟨script, hscript⟩ :=
      exists_scripted_deliverEach t w.channels (c.expire now w.holdings.store).2
    exact ⟨script, fun rest => by simp only [perform, hscript]⟩

/-! ## Calls and what they find -/

/-- The policies of the collector. -/
def policies : Policies := ⟨c.keyRule, c.releaseRule, c.processor⟩

/-- The collector with other policies. -/
def under (p : Policies) : Collector :=
  { c with keyRule := p.keyRule, releaseRule := p.releaseRule, processor := p.processor }

@[simp] lemma under_policies : c.under c.policies = c := rfl

/-- Performs a call with what it finds. -/
def meet (h : Holdings) (o : Occasion σ) : Performed σ :=
  (c.under o.policies).perform t ⟨h, o.channels⟩ o.call

/-- What comes of calls that are made one after the other. -/
def meetAll (h : Holdings) : List (Occasion σ) → List (Performed σ)
  | [] => []
  | o :: occasions => c.meet t h o :: meetAll (c.meet t h o).world.holdings occasions

/-- What is held behind calls that are made one after the other, before which nothing was. -/
def heldAfter (occasions : List (Occasion σ)) : Holdings :=
  occasions.foldl (fun h o => (c.meet t h o).world.holdings) (.empty c.settings.capacity)

/-- The last call is performed with what is held behind the others. -/
lemma heldAfter_concat (front : List (Occasion σ)) (o : Occasion σ) :
    c.heldAfter t (front ++ [o]) = (c.meet t (c.heldAfter t front) o).world.holdings := by
  rw [heldAfter, List.foldl_append]
  rfl

/-- The store is valid behind all calls. -/
lemma valid_heldAfter (occasions : List (Occasion σ)) : (c.heldAfter t occasions).store.Valid := by
  induction occasions using List.reverseRecOn with
  | nil => exact Store.valid_empty _
  | append_singleton front o ih =>
    rw [heldAfter_concat]
    exact (c.under o.policies).valid_perform t (w := ⟨_, o.channels⟩) ih o.call

/-- The capacity of the store is the one set, behind all calls. -/
lemma capacity_heldAfter (occasions : List (Occasion σ)) :
    (c.heldAfter t occasions).store.capacity = c.settings.capacity := by
  induction occasions using List.reverseRecOn with
  | nil => rfl
  | append_singleton front o ih =>
    rw [heldAfter_concat]
    exact ((c.under o.policies).capacity_perform t ⟨_, o.channels⟩ o.call).trans ih

/-- What a group buffers behind a call it has buffered before, or the call has handed it in. -/
lemma buffered_perform {w : World σ} (hv : w.holdings.store.Valid) {call : Call} {key : Key}
    {g : Group} (hg : groupIn (c.perform t w call).world key = some g) {m : Message}
    (hm : m ∈ g.messages) :
    (∃ g', groupIn w key = some g' ∧ m ∈ g'.messages) ∨ ∃ now, call = .handle m now := by
  cases c.turn t key hv call with
  | idle same => exact .inl ⟨g, same.symm.trans hg, hm⟩
  | closed _ gone => rw [gone] at hg; simp at hg
  | joined joining now handed _ _ _ next =>
    have hbuffered : m ∈ ((w.holdings.store.groupOf key now).join joining).messages := by
      rcases c.eq_of_receive_fst (next.symm.trans hg) with rfl | rfl | rfl
      · exact hm
      · exact (c.processor.process_sublist _).subset hm
      · simp [Group.complete] at hm
    rw [Group.messages_join, List.mem_append, List.mem_singleton] at hbuffered
    rcases hbuffered with hstays | rfl
    · have hmet := (Group.dropExcess_sublist _ _).subset hstays
      cases hstored : w.holdings.store.get? key with
      | none => simp [Store.groupOf_of_absent hstored, Group.new] at hmet
      | some g' =>
        rw [Store.groupOf_of_get? hstored] at hmet
        exact .inl ⟨g', hstored, hmet⟩
    · exact .inr ⟨now, handed⟩

/-- What is buffered behind calls has been handed in by one of them.

**Proof sketch.** Induction on the calls, the last one first (`buffered_perform`). -/
theorem exists_call_of_held {occasions : List (Occasion σ)} {key : Key} {g : Group}
    (hg : (c.heldAfter t occasions).store.get? key = some g) {m : Message} (hm : m ∈ g.messages) :
    ∃ o ∈ occasions, ∃ now, o.call = .handle m now := by
  induction occasions using List.reverseRecOn generalizing g with
  | nil =>
    rw [show (c.heldAfter t []).store.get? key = none from rfl] at hg
    simp at hg
  | append_singleton front o ih =>
    rw [heldAfter_concat] at hg
    rcases (c.under o.policies).buffered_perform t (w := ⟨c.heldAfter t front, o.channels⟩)
      (c.valid_heldAfter t front) hg hm with ⟨g', hg', hm'⟩ | ⟨now, hnow⟩
    · obtain ⟨earlier, hmem, hcall⟩ := ih hg' hm'
      exact ⟨earlier, List.mem_append_left _ hmem, hcall⟩
    · exact ⟨o, List.mem_append_right _ List.mem_cons_self, now, hnow⟩

/-! ## Policies that stay -/

/-- Where the policies stay, the same is held as behind the calls of a run, whatever becomes of the
sends. -/
theorem heldAfter_eq_after (t' : Transport τ) (channels : τ) {occasions : List (Occasion σ)}
    (hstay : ∀ o ∈ occasions, o.policies = c.policies) :
    c.heldAfter t occasions =
      (c.after t' (c.start channels) (occasions.map (·.call))).holdings := by
  induction occasions using List.reverseRecOn with
  | nil => rfl
  | append_singleton front o ih =>
    have hfront := ih fun o ho => hstay o (List.mem_append_left _ ho)
    rw [heldAfter_concat, List.map_append, List.map_singleton, after_concat, meet,
      hstay o (List.mem_append_right _ List.mem_cons_self), under_policies]
    exact c.holdings_perform_congr t t' hfront o.call

/-- **Where the policies stay, the calls come to the same as those of a run.** That the channels
change in between makes the same difference as channels do that answer the sends from a list.

**Proof sketch.** Induction on the calls: the list begins with what is answered to the sends of the
first (`exists_scripted_perform`). -/
theorem exists_scripted_run (h : Holdings) {occasions : List (Occasion σ)}
    (hstay : ∀ o ∈ occasions, o.policies = c.policies) :
    ∃ script, (c.runAll .scripted ⟨h, script⟩ (occasions.map (·.call))).2.map (·.outcome) =
      (c.meetAll t h occasions).map (·.outcome) := by
  induction occasions generalizing h with
  | nil => exact ⟨[], rfl⟩
  | cons o occasions ih =>
    obtain ⟨first, hfirst⟩ := c.exists_scripted_perform t ⟨h, o.channels⟩ o.call
    have hmeet : c.meet t h o = c.perform t ⟨h, o.channels⟩ o.call := by
      rw [meet, hstay o List.mem_cons_self, under_policies]
    obtain ⟨later, hlater⟩ := ih (c.meet t h o).world.holdings
      fun o ho => hstay o (List.mem_cons_of_mem _ ho)
    refine ⟨first ++ later, ?_⟩
    simp only [List.map_cons, runAll, meetAll, hfirst, ← hmeet, hlater]
    rfl

end Collector

end Regroup
