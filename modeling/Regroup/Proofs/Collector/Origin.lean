import Regroup.Proofs.Collector.Tracking

/-!
# Where the contents of a group come from

Some things are true of a stored group whatever positions its messages stand at, the last one of
all included, from where a barrier goes back to the front. The group buffers nothing but messages
that have joined it, it knows the length that the first of them told that told any, and its barrier
has gone past no position that has not been taken.

## Main definitions

* `Regroup.Group.StemsFrom` — that a group stems from messages that it has accepted.

## Main results

* `Regroup.Group.StemsFrom.join`, `Regroup.Group.StemsFrom.reduce` — joining and processing keep
  it so.
* `Regroup.Collector.stemsFrom_of_lifetime` — every stored group stems from its lifetime.
* `Regroup.Collector.exists_handle_of_stored` — what a stored group buffers has been handed in.
-/

namespace Regroup

open SequenceNumber

namespace Group

variable {g : Group} {m : Message} {accepted : List Message}

/-- A group stems from the messages that it has accepted, marks included. -/
structure StemsFrom (g : Group) (accepted : List Message) : Prop where
  /-- The length is the first one told. -/
  size_eq : g.size = told accepted
  /-- What is buffered has been accepted. -/
  buffered : ∀ a ∈ g.messages, a ∈ accepted
  /-- What the barrier has gone past has been accepted. -/
  covers : Covers accepted (g.barrier.next.toNat - 1)

/-- A group before its first message has accepted nothing. -/
lemma stemsFrom_new (key : Key) (now : Instant) : (new key now).StemsFrom [] where
  size_eq := rfl
  buffered := by simp [new]
  covers := (reflects_new key now).covers

/-! ## Runs -/

/-- A barrier that steps over a position that has been taken has gone past taken positions only.
Behind the last position it has gone past none. -/
lemma covers_step {b : Barrier} (h : Covers accepted (b.next.toNat - 1))
    (hm : ∃ m ∈ accepted, m.number = some b.next) :
    Covers accepted (b.step.next.toNat - 1) := by
  by_cases hlast : b.next = last
  · have hfront : b.step.next.toNat = 0 := by
      rw [Barrier.step, hlast]
      rfl
    intro n hn hle
    have := toNat_pos hn
    omega
  · have hnext := Barrier.toNat_next_step hlast
    intro n hn hle
    by_cases he : n = b.next
    · exact he ▸ hm
    · have hne : n.toNat ≠ b.next.toNat := fun e => he (UInt32.toNat_inj.1 e)
      exact h n hn (by omega)

/-- Taking a run moves the barrier past taken positions only.

**Proof sketch.** Induction on the rounds: each takes a message at the position that the barrier
then steps over. -/
lemma covers_run {size : Option SequenceNumber} {rounds : ℕ} {b : Barrier} {ms : List Message}
    (hms : ∀ a ∈ ms, a ∈ accepted) (h : Covers accepted (b.next.toNat - 1)) :
    Covers accepted ((run size rounds b ms).barrier.next.toNat - 1) := by
  induction rounds generalizing b ms with
  | zero => exact h
  | succ rounds ih =>
    unfold run
    split
    · exact h
    · rw [extract_eq]
      cases hm : firstAt ms b.next with
      | none => exact h
      | some m =>
        obtain ⟨hmem, hnum⟩ := firstAt_eq_some hm
        exact ih (fun a ha => hms a (List.eraseP_subset ha)) (covers_step h ⟨m, hms m hmem, hnum⟩)

namespace StemsFrom

/-! ## Joining and processing -/

/-- A group that a message joins stems from what it has accepted then. -/
theorem join (h : g.StemsFrom accepted) (m : Message) : (g.join m).StemsFrom (accepted ++ [m]) where
  size_eq := by rw [size_join, h.size_eq, told_concat]
  buffered := by
    intro a ha
    rw [messages_join, List.mem_append, List.mem_singleton] at ha
    rcases ha with ha | rfl
    · exact List.mem_append_left _ (h.buffered a ((g.dropExcess_sublist m).subset ha))
    · exact List.mem_append_right _ List.mem_cons_self
  covers := by
    rw [barrier_join]
    exact h.covers.append [m]

/-- What is left of a group that messages are taken out of stems from what the group did.

**Proof sketch.** Only taking a run moves the barrier, past positions that have been taken
(`covers_run`). -/
theorem reduce (h : g.StemsFrom accepted) {left : Group} (hr : g.ReducesTo left) :
    left.StemsFrom accepted := by
  induction hr with
  | refl => exact h
  | takeAll _ ih => exact ⟨ih.size_eq, by simp [takeAll], ih.covers⟩
  | takeNumbered _ ih =>
    exact ⟨ih.size_eq, fun a ha => ih.buffered a (List.mem_of_mem_filter ha), ih.covers⟩
  | releaseRun hr ih =>
    exact ⟨ih.size_eq, fun a ha => ih.buffered a ((left_run_sublist _ _ _ _).subset ha),
      covers_run ih.buffered ih.covers⟩

/-- The mark of a group stems from what the group did. -/
lemma complete (h : g.StemsFrom accepted) : g.complete.StemsFrom accepted :=
  ⟨h.size_eq, by simp [Group.complete], h.covers⟩

/-- A barrier behind the end of the sequence has gone past every position, and all of them have been
taken. -/
lemma covers_of_isDrained (h : g.StemsFrom accepted) (hd : g.isDrained = true)
    {n : SequenceNumber} (hn : g.size = some n) : Covers accepted n.toNat := by
  rw [isDrained, hn, Barrier.isPast, decide_eq_true_eq, UInt32.lt_iff_toNat_lt] at hd
  exact fun i hi hle => h.covers i hi (by omega)

end StemsFrom

end Group

/-! ## Along a lifetime -/

namespace Collector

variable {c : Collector} {g left : Group} {m : Message} {accepted : List Message}

/-- What is left in the store of a group that a message joins stems from what it has accepted
then. -/
lemma stemsFrom_receive (h : g.StemsFrom accepted) (he : (c.receive g m).1 = some left) :
    left.StemsFrom (accepted ++ [m]) := by
  have hjoin := h.join m
  have hproc := hjoin.reduce (c.processor.reducesTo_process _)
  rcases c.eq_of_receive_fst he with rfl | rfl | rfl
  · exact hjoin
  · exact hproc
  · exact hproc.complete

variable {σ : Type} {t : Transport σ} {key : Key} {w : World σ} {now : Instant}

/-- The group that a message meets stems from the lifetime so far, given that stored groups do. -/
private lemma stemsFrom_groupOf_of {front : List Call} {call : Call}
    (hl : c.Lifetime t key w (front ++ [call]))
    (ih : ∀ g, groupIn (c.after t w front) key = some g →
      g.StemsFrom (c.history t key w front)) :
    ((c.after t w front).holdings.store.groupOf key now).StemsFrom
      (c.history t key w front) := by
  refine Store.groupOf_induction ih fun habsent => ?_
  obtain rfl := hl.eq_nil_of_absent habsent
  exact Group.stemsFrom_new key now

/-- **Every stored group stems from its lifetime.**

**Proof sketch.** Induction on the calls of the lifetime, the last one first. -/
theorem stemsFrom_of_lifetime (hv : w.holdings.store.Valid) {calls : List Call}
    (hl : c.Lifetime t key w calls) {g : Group}
    (hg : groupIn (c.after t w calls) key = some g) :
    g.StemsFrom (c.history t key w calls) := by
  induction calls using List.reverseRecOn generalizing g with
  | nil =>
    rw [after_nil, hl.absent] at hg
    simp at hg
  | append_singleton front call ih =>
    have ih' := fun g hg => ih (g := g) hl.front hg
    rw [after_concat] at hg
    rw [history_concat]
    cases c.turn t key (c.valid_after t hv front) call with
    | idle same acc =>
      rw [acc, List.append_nil]
      exact ih' g (same.symm.trans hg)
    | closed _ gone => rw [gone] at hg; simp at hg
    | joined m now handed isFor wellFormed welcome next acc =>
      rw [acc]
      exact stemsFrom_receive (stemsFrom_groupOf_of hl ih') (next.symm.trans hg)

/-- What a stored group buffers has been handed in. -/
lemma exists_handle_of_stored {channels : σ} {calls : List Call} {g : Group}
    (hg : groupIn (c.after t (c.start channels) calls) key = some g) {m : Message}
    (hm : m ∈ g.messages) : ∃ now, Call.handle m now ∈ calls := by
  have habsent : groupIn (c.start channels) key = none := rfl
  obtain ⟨before, life, rfl, hl⟩ := exists_lifetime habsent calls (by rw [hg]; simp)
  rw [after_append] at hg
  have hstem := stemsFrom_of_lifetime (c.valid_after_start t channels before) hl hg
  obtain ⟨⟨now, hnow⟩, -⟩ := c.mem_history t key (hstem.buffered m hm)
  exact ⟨now, List.mem_append_right before hnow⟩

/-- The group that a message meets stems from the lifetime so far. -/
theorem stemsFrom_groupOf (hv : w.holdings.store.Valid) {front : List Call} {call : Call}
    (hl : c.Lifetime t key w (front ++ [call])) (now : Instant) :
    ((c.after t w front).holdings.store.groupOf key now).StemsFrom
      (c.history t key w front) :=
  stemsFrom_groupOf_of hl fun _ hg => stemsFrom_of_lifetime hv hl.front hg

end Collector

end Regroup
