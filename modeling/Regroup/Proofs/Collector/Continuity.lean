import Regroup.Proofs.Collector.Occasions
import Regroup.Proofs.Collector.Origin

/-!
# A stored group only goes forward

While a key keeps its group, no call takes back what earlier calls have done to it. The group stays
as old as it is, a sequence length that it has learnt does not change, its barrier does not move
back, and a mark stays a mark. Messages leave it, and at most one joins it behind those that stay,
so nothing that has left comes back and nothing changes its place.

A call that removes a group never puts another one in its place, so a key that has a group before
and behind a call has the same one.

## Main definitions

* `Regroup.Group.Continues` — that a group is what has become of another after messages have joined.

## Main results

* `Regroup.Group.Continues.trans` — going forward twice is going forward.
* `Regroup.Collector.continues_perform` — one call lets a stored group go forward.
* `Regroup.Collector.continues_of_present` — so do all calls of a collector while the group is
  there.
* `Regroup.Collector.continues_of_call` — so does every call, whatever has changed since the one
  before.
-/

namespace Regroup

open SequenceNumber

namespace Group

variable {g g' g'' : Group} {m : Message} {joined joined' : List Message}

/-- A group is what has become of another one that messages may have joined and left since. -/
structure Continues (g g' : Group) (joined : List Message) : Prop where
  /-- It came into being at the same moment. -/
  createdAt_eq : g'.createdAt = g.createdAt
  /-- A length that was known is still the length. -/
  size_kept : ∀ s, g.size = some s → g'.size = some s
  /-- The barrier has not moved back. -/
  next_le : g.barrier.next ≤ g'.barrier.next
  /-- A mark is still a mark. -/
  completed_kept : g.completed = true → g'.completed = true
  /-- What is buffered was buffered or has joined, and it stands in that order. -/
  messages_sublist : g'.messages.Sublist (g.messages ++ joined)

namespace Continues

/-- A group to which nothing happens goes forward. -/
lemma refl (g : Group) : g.Continues g [] where
  createdAt_eq := rfl
  size_kept _ hs := hs
  next_le := UInt32.le_refl _
  completed_kept hc := hc
  messages_sublist := by rw [List.append_nil]

/-- Going forward twice is going forward, with what has joined the first time in front. -/
theorem trans (h : g.Continues g' joined) (h' : g'.Continues g'' joined') :
    g.Continues g'' (joined ++ joined') where
  createdAt_eq := h'.createdAt_eq.trans h.createdAt_eq
  size_kept s hs := h'.size_kept s (h.size_kept s hs)
  next_le := UInt32.le_trans h.next_le h'.next_le
  completed_kept hc := h'.completed_kept (h.completed_kept hc)
  messages_sublist := by
    rw [← List.append_assoc]
    exact h'.messages_sublist.trans (h.messages_sublist.append_right joined')

end Continues

/-! ## Joining and processing -/

/-- A message that joins lets a group go forward, whatever it evicts. -/
lemma continues_join (g : Group) (m : Message) : g.Continues (g.join m) [m] where
  createdAt_eq := by rw [join, push, dropExcess_eq]
  size_kept s hs := by rw [size_join, hs, Option.some_or]
  next_le := by rw [barrier_join]; exact UInt32.le_refl _
  completed_kept hc := by rw [completed_join, hc]
  messages_sublist := by
    rw [messages_join]
    exact (g.dropExcess_sublist m).append_right [m]

/-- A run lets a group go forward that holds no message at the last position of all. From there its
barrier would go back to the front. -/
private lemma continues_releaseRun (hlast : ∀ a ∈ g.messages, a.number ≠ some last) :
    g.Continues g.releaseRun.2 [] where
  createdAt_eq := rfl
  size_kept _ hs := hs
  next_le := by
    obtain ⟨k, r, hr, hrelease⟩ := g.isRun_releaseRun ⟨last, le_last _, hlast⟩
    rw [hrelease, UInt32.le_iff_toNat_le]
    have := hr.next_eq
    show g.barrier.next.toNat ≤ r.barrier.next.toNat
    omega
  completed_kept hc := hc
  messages_sublist := by
    rw [List.append_nil]
    exact left_run_sublist _ _ _ _

/-- Taking messages out lets a group go forward that holds none at the last position of all.

**Proof sketch.** Induction on the ways in which messages have been taken out: what is left holds
none there either. -/
lemma continues_of_reducesTo (h : g.ReducesTo g')
    (hlast : ∀ a ∈ g.messages, a.number ≠ some last) : g.Continues g' [] := by
  induction h with
  | refl => exact .refl g
  | takeAll _ ih =>
    exact ih.trans ⟨rfl, fun _ hs => hs, UInt32.le_refl _, fun hc => hc, List.nil_sublist _⟩
  | takeNumbered _ ih =>
    refine ih.trans ⟨rfl, fun _ hs => hs, UInt32.le_refl _, fun hc => hc, ?_⟩
    rw [List.append_nil]
    exact List.filter_sublist
  | releaseRun hr ih =>
    exact ih.trans (continues_releaseRun fun a ha => hlast a (hr.sublist.subset ha))

/-- The mark that a group leaves goes forward from it. -/
lemma continues_complete (g : Group) : g.Continues g.complete [] where
  createdAt_eq := rfl
  size_kept _ hs := hs
  next_le := UInt32.le_refl _
  completed_kept _ := rfl
  messages_sublist := List.nil_sublist _

end Group

namespace Collector

variable {c : Collector} {g g' : Group} {m : Message}

/-! ## One call -/

/-- What is left in the store of a group that a message joins goes forward from it. -/
lemma continues_receive (hlast : ∀ a ∈ g.messages ++ [m], a.number ≠ some last)
    (he : (c.receive g m).1 = some g') : g.Continues g' [m] := by
  have hjoin := g.continues_join m
  have hproc : g.Continues (c.processor.process (g.join m)).2 [m] :=
    hjoin.trans (Group.continues_of_reducesTo (c.processor.reducesTo_process _)
      fun a ha => hlast a (hjoin.messages_sublist.subset ha))
  rcases c.eq_of_receive_fst he with rfl | rfl | rfl
  · exact hjoin
  · exact hproc
  · exact hproc.trans (Group.continues_complete _)

variable {σ : Type} {t : Transport σ} {key : Key} {w : World σ} {call : Call}

/-- Where a key has a group before and behind a call, the group has gone forward. A call that adds
nothing to it leaves it as it is. -/
theorem continues_perform (hv : w.holdings.store.Valid) (hg : groupIn w key = some g)
    (hg' : groupIn (c.perform t w call).world key = some g')
    (hlast : ∀ a ∈ g.messages ++ c.accepted key w call, a.number ≠ some last) :
    g.Continues g' (c.accepted key w call) ∧ (c.accepted key w call = [] → g' = g) := by
  cases c.turn t key hv call with
  | idle same acc =>
    obtain rfl : g' = g := by rw [same, hg] at hg'; exact (Option.some.inj hg').symm
    rw [acc]
    exact ⟨.refl g', fun _ => rfl⟩
  | closed _ gone =>
    rw [gone] at hg'
    simp at hg'
  | joined m now handed isFor wellFormed welcome next acc =>
    rw [Store.groupOf_of_get? hg, hg'] at next
    rw [acc] at hlast ⊢
    exact ⟨continues_receive hlast next.symm, by simp⟩

/-- At most one message joins the group of a key at a call. -/
lemma length_accepted_le (c : Collector) (key : Key) (w : World σ) (call : Call) :
    (c.accepted key w call).length ≤ 1 := by
  cases call with
  | close k => exact Nat.zero_le _
  | expire now => exact Nat.zero_le _
  | handle m now =>
    simp only [accepted]
    split
    · exact Nat.le_refl _
    · exact Nat.zero_le _

/-! ## Every call -/

/-- Behind any calls that hand in no message at the last position of all, neither what a group
buffers nor what the next call adds to it stands there. -/
private lemma ne_last_of_stored {channels : σ} {calls : List Call}
    (hlast : ∀ m now, Call.handle m now ∈ calls ++ [call] → m.number ≠ some last)
    (hg : groupIn (c.after t (c.start channels) calls) key = some g) :
    ∀ a ∈ g.messages ++ c.accepted key (c.after t (c.start channels) calls) call,
      a.number ≠ some last := by
  intro a ha
  rcases List.mem_append.1 ha with ha | ha
  · obtain ⟨now, hnow⟩ := exists_handle_of_stored hg ha
    exact hlast a now (List.mem_append_left _ hnow)
  · obtain ⟨now, rfl, -⟩ := c.mem_accepted key ha
    exact hlast a now (List.mem_append_right _ List.mem_cons_self)

/-- While a key keeps its group all calls together let the group go forward, and what has joined it
are the messages that have been accepted for the key, in the order of their arrival.

**Proof sketch.** Induction on the calls, the last one first (`continues_perform`). -/
theorem continues_of_present (c : Collector) (t : Transport σ) (channels : σ)
    (calls later : List Call)
    (hlast : ∀ m now, Call.handle m now ∈ calls ++ later → m.number ≠ some last)
    (hpresent : ∀ front rest, later = front ++ rest →
      groupIn (c.after t (c.start channels) (calls ++ front)) key ≠ none)
    (hg : groupIn (c.after t (c.start channels) calls) key = some g)
    (hg' : groupIn (c.after t (c.start channels) (calls ++ later)) key = some g') :
    g.Continues g' (c.history t key (c.after t (c.start channels) calls) later) := by
  induction later using List.reverseRecOn generalizing g' with
  | nil =>
    obtain rfl : g = g' := by rw [List.append_nil, hg] at hg'; exact Option.some.inj hg'
    exact .refl g
  | append_singleton front call ih =>
    rw [← List.append_assoc] at hlast hg'
    obtain ⟨g₁, hg₁⟩ := Option.ne_none_iff_exists'.1 (hpresent front [call] rfl)
    have hfront := ih (fun m now hm => hlast m now (List.mem_append_left _ hm))
      (fun front' rest he => hpresent front' (rest ++ [call]) (by rw [he, List.append_assoc])) hg₁
    rw [after_concat] at hg'
    have hcall := (continues_perform (c.valid_after_start t channels _) hg₁ hg'
      (ne_last_of_stored hlast hg₁)).1
    rw [history_concat, ← after_append]
    exact hfront.trans hcall

/-- Behind any calls that hand in no message at the last position of all, neither what a group
buffers nor what the next call adds to it stands there. -/
private lemma ne_last_of_held {occasions : List (Occasion σ)} {o : Occasion σ}
    (hlast : ∀ o' ∈ occasions ++ [o], ∀ m now, o'.call = .handle m now → m.number ≠ some last)
    (hg : (c.heldAfter t occasions).store.get? key = some g) :
    ∀ a ∈ g.messages ++
        (c.under o.policies).accepted key ⟨c.heldAfter t occasions, o.channels⟩ o.call,
      a.number ≠ some last := by
  intro a ha
  rcases List.mem_append.1 ha with ha | ha
  · obtain ⟨earlier, hmem, now, hcall⟩ := c.exists_call_of_held t hg ha
    exact hlast earlier (List.mem_append_left _ hmem) a now hcall
  · obtain ⟨now, hcall, -⟩ := (c.under o.policies).mem_accepted key ha
    exact hlast o (List.mem_append_right _ List.mem_cons_self) a now hcall

/-- **No call takes back what has happened to a group.** Where a key has a group behind any calls of
a collector and still has it behind one more, the group has gone forward: it came into being when it
did, a length that it knew is its length, its barrier has not moved back, a mark is a mark, and it
buffers, in order, some of what it did and behind that at most the one message that the call has
added, as long as no message stands at the last position of all. A call that has added none leaves
the group as it is.

The settings may be any. So may the policies, provided or not, and they may decide otherwise at
every call, as long as what processes groups only takes messages out of them (`CustomProcessor`).
The channels may fail sends and change between the calls.

**Proof sketch.** A group that is there behind the call either stays as it is or is what a message
that joins it leaves behind (`continues_perform`). What it buffers has been handed in
(`exists_call_of_held`), so no run carries its barrier past the last position. -/
theorem continues_of_call (c : Collector) {σ : Type} (t : Transport σ)
    (occasions : List (Occasion σ)) (o : Occasion σ)
    (hlast : ∀ o' ∈ occasions ++ [o], ∀ m now, o'.call = .handle m now → m.number ≠ some last)
    (key : Key) (g g' : Group) (hg : (c.heldAfter t occasions).store.get? key = some g)
    (hg' : (c.heldAfter t (occasions ++ [o])).store.get? key = some g') :
    let added := (c.under o.policies).accepted key ⟨c.heldAfter t occasions, o.channels⟩ o.call
    g.Continues g' added ∧ added.length ≤ 1 ∧ (added = [] → g' = g) := by
  intro added
  rw [heldAfter_concat] at hg'
  obtain ⟨hcontinues, hsame⟩ := continues_perform (c := c.under o.policies) (t := t)
    (w := ⟨_, o.channels⟩) (c.valid_heldAfter t occasions) hg hg' (ne_last_of_held hlast hg)
  exact ⟨hcontinues, (c.under o.policies).length_accepted_le key _ o.call, hsame⟩

/-- A resequencer of runs waits for the second position. The message that stands there is the first
to tell the length, so that what is buffered beyond it is evicted. At that moment policies decide
that are not provided: they take the group to be ready, and let its run go but never the
group. -/
theorem continues_of_call_evicting :
    let m := fun payload number size => Message.build (.bare payload)
      (.correlationId "a" :: .sequenceNumber number :: size)
    let c := resequencing (.resequencing true) (.correlation .refuse) none true
    let own : Policies := ⟨.derived fun _ => some "a", .custom fun g => g.size = some 5,
      .custom ⟨fun g => (.interim g.releaseRun.1, g.releaseRun.2), fun g => ([], g),
        fun _ => .releaseRun .refl, fun _ => .refl⟩⟩
    let occasions : List (Occasion (List Send)) := [
      ⟨c.policies, [], .handle (m "one" 1 []) ⟨5⟩⟩,
      ⟨c.policies, [], .handle (m "three" 3 []) ⟨6⟩⟩,
      ⟨c.policies, [], .handle (m "nine" 9 []) ⟨7⟩⟩,
      ⟨c.policies, [], .handle (m "five" 5 []) ⟨8⟩⟩]
    let o : Occasion (List Send) := ⟨own, [], .handle (m "two" 2 [.sequenceSize 5]) ⟨9⟩⟩
    let g : Group :=
      ⟨"a", [m "three" 3 [], m "nine" 9 [], m "five" 5 []], none, ⟨2⟩, 4, ⟨5⟩, false⟩
    let g' : Group := ⟨"a", [m "five" 5 []], some 5, ⟨4⟩, 4, ⟨5⟩, false⟩
    (c.heldAfter .recording occasions).store.get? "a" = some g ∧
      (c.heldAfter .recording (occasions ++ [o])).store.get? "a" = some g' ∧
      g.Continues g' [m "two" 2 [.sequenceSize 5]] := by
  intro m c own occasions o g g'
  have hg : (c.heldAfter .recording occasions).store.get? "a" = some g := by decide
  have hg' : (c.heldAfter .recording (occasions ++ [o])).store.get? "a" = some g' := by decide
  have hadded : (c.under own).accepted "a" ⟨c.heldAfter .recording occasions, o.channels⟩ o.call =
      [m "two" 2 [.sequenceSize 5]] := by decide
  have hlast : ∀ o' ∈ occasions ++ [o], ∀ x now, o'.call = .handle x now →
      x.number ≠ some last := by
    intro o' ho' x now hcall
    simp only [occasions, o, List.cons_append, List.nil_append, List.mem_cons, List.not_mem_nil,
      or_false] at ho'
    rcases ho' with rfl | rfl | rfl | rfl | rfl <;>
      · obtain ⟨rfl, -⟩ := Call.handle.inj hcall
        decide
  refine ⟨hg, hg', ?_⟩
  rw [← hadded]
  exact (continues_of_call c .recording occasions o hlast "a" g g' hg hg').1

end Collector

end Regroup
