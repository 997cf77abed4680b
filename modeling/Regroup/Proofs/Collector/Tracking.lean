import Regroup.Proofs.Collector.Lifetime

/-!
# Stored groups track their lifetimes

Whatever the settings of a collector are, and whichever of the processors provided it goes by, a
stored group is at every moment what the messages accepted in its lifetime make of it, or it is a
mark that holds nothing.

## Main definitions

* `Regroup.Collector.Fits` — that a message cannot carry the barrier beyond the last position.
* `Regroup.Collector.Follows` — that an open group is in step with what it has accepted.
* `Regroup.Collector.IsMark` — that a group is a mark of one that was released early.

## Main results

* `Regroup.Collector.tracks_receive` — joining and releasing keep a group in step.
* `Regroup.Collector.tracks_of_lifetime` — every stored group is in step with its lifetime.
* `Regroup.Collector.evictions_eq` — what has been evicted is what lies beyond the end.
-/

namespace Regroup

open SequenceNumber

/-- Whether groups may be released in several parts: a resequencer of runs releases them run by run,
and nothing is known of a processor that is not provided. -/
def Processor.releasesRuns : Processor → Bool
  | .resequence r => r.releasesRuns
  | .passThrough | .aggregate _ => false
  | .custom _ => true

/-- A processor that releases groups as a whole is one of those provided. -/
lemma Processor.isProvided_of_whole {p : Processor} (hp : p.releasesRuns = false) :
    p.isProvided = true := by
  cases p with
  | custom p => simp [releasesRuns] at hp
  | passThrough | aggregate combine | resequence r => rfl

namespace Collector

variable (c : Collector)

/-- A message fits where it cannot carry the barrier beyond the last position: groups are not
released run by run, or the message does not stand at the last position. -/
def Fits (m : Message) : Prop := c.processor.releasesRuns = true → m.number ≠ some last

/-- An open group is in step with what it has accepted: it is not drained, and its barrier has not
moved unless groups are released run by run. -/
structure Follows (g : Group) (accepted : List Message) : Prop where
  reflects : g.Reflects accepted
  undrained : g.isDrained = false
  unmoved : c.processor.releasesRuns = false → g.barrier = .start

/-- A group is a mark: it buffers nothing, and fewer messages have been accepted and not evicted
than its sequence has. -/
structure IsMark (g : Group) : Prop where
  discardsLate : c.settings.discardsLate = true
  completed : g.completed = true
  messages_eq : g.messages = []
  barrier_eq : g.barrier = .start
  received_lt : ∃ s, g.size = some s ∧ g.received < s.toNat

/-- A stored group is in step with what it has accepted, or it is a mark. -/
def Tracks (g : Group) (accepted : List Message) : Prop := c.Follows g accepted ∨ c.IsMark g

variable {c} {g left : Group} {m : Message} {accepted : List Message}

/-- A group before its first message has accepted nothing. -/
lemma follows_new (key : Key) (now : Instant) : c.Follows (.new key now) [] where
  reflects := Group.reflects_new key now
  undrained := rfl
  unmoved _ := rfl

/-- The barrier of a group in step has not gone past the end of its sequence. -/
lemma Follows.next_le (h : c.Follows g accepted) {s : SequenceNumber} (hs : g.size = some s) :
    g.barrier.next.toNat ≤ s.toNat := by
  have hd := h.undrained
  simp only [Group.isDrained, hs, Barrier.isPast, decide_eq_false_iff_not,
    UInt32.lt_iff_toNat_lt] at hd
  omega

/-- Where groups are not released run by run every message fits. -/
lemma fits_of_whole (hp : c.processor.releasesRuns = false) (m : Message) : c.Fits m := by
  intro h
  rw [hp] at h
  simp at h

/-- Joining keeps a group in step. -/
lemma Follows.join (h : c.Follows g accepted) (hw : g.Welcomes m)
    (hwf : m.isWellFormed = true) : c.Follows (g.join m) (accepted ++ [m]) where
  reflects := h.reflects.join hw hwf
  undrained := Group.Reflects.isDrained_join h.undrained hw hwf
  unmoved hp := by rw [Group.barrier_join, h.unmoved hp]

/-- Where groups are not released run by run, an open group buffers all that has joined it and does
not lie beyond the end of its sequence. -/
lemma Follows.messages_eq_filter (h : c.Follows g accepted)
    (hp : c.processor.releasesRuns = false) :
    g.messages = accepted.filter (Group.isInside (told accepted)) := by
  rw [h.reflects.messages_eq, h.reflects.size_eq, h.unmoved hp]
  apply List.filter_congr
  intro m hm
  have hretains : Barrier.start.retains m = true := by
    rw [Barrier.retains_iff]
    intro n hn
    exact toNat_pos (((m.isWellFormed_iff).1 (h.reflects.wellFormed m hm)).1 n hn)
  rw [hretains, Bool.and_true]

/-! ## Settling -/

/-- Where groups are not released run by run, a ready group leaves a mark or nothing. -/
lemma settle_fst_of_unmoved (hp : c.processor.releasesRuns = false) (g : Group) :
    (c.settle g).1 = if c.marks g then some g.complete else none := by
  unfold settle
  cases hproc : c.processor with
  | passThrough => rfl
  | aggregate combine =>
    obtain ⟨ms, h⟩ := Processor.process_aggregate combine g
    rw [h]
    rfl
  | resequence r =>
    rw [hproc] at hp
    rw [Processor.process_whole hp]
    rfl
  | custom p => simp [hproc, Processor.releasesRuns] at hp

/-- Where groups are released run by run, a ready group leaves what its run leaves, unless the run
drains it. -/
lemma settle_of_runs {r : Resequencer} (hp : c.processor = .resequence r)
    (hr : r.releasesRuns = true) (g : Group) :
    c.settle g =
      if g.releaseRun.2.isDrained then
        (if c.marks g.releaseRun.2 then some g.releaseRun.2.complete else none,
          g.releaseRun.1.map Send.release ++ c.discardPlan g.releaseRun.2.messages)
      else (some g.releaseRun.2, g.releaseRun.1.map Send.release) := by
  unfold settle
  rw [hp, Processor.process_runs hr]
  cases g.releaseRun.2.isDrained <;> rfl

/-- A resequencer is the one of the processors provided that releases run by run. -/
lemma exists_resequencer (hprov : c.processor.isProvided = true)
    (hp : c.processor.releasesRuns = true) :
    ∃ r : Resequencer, c.processor = .resequence r ∧ r.releasesRuns = true := by
  cases hproc : c.processor with
  | custom p => simp [hproc, Processor.isProvided] at hprov
  | passThrough => rw [hproc] at hp; simp [Processor.releasesRuns] at hp
  | aggregate combine => rw [hproc] at hp; simp [Processor.releasesRuns] at hp
  | resequence r => exact ⟨r, rfl, by rw [hproc] at hp; exact hp⟩

/-- A group is marked only if it has not seen its whole sequence. -/
lemma marks_iff (g : Group) :
    c.marks g = true ↔
      c.settings.discardsLate = true ∧ ∃ s, g.size = some s ∧ g.received < s.toNat := by
  unfold marks Group.isSequenced Group.hasSeenWhole
  cases g.size <;> simp

/-- A group whose barrier has gone past the end of its sequence is not marked. -/
lemma marks_of_released {s : SequenceNumber} (h : g.Reflects accepted) (hs : g.size = some s)
    (hnext : s.toNat < g.barrier.next.toNat) : c.marks g = false := by
  rw [← Bool.not_eq_true, marks_iff]
  rintro ⟨-, s', hs', hlt⟩
  obtain rfl : s = s' := Option.some.inj (hs.symm.trans hs')
  have := h.received_eq
  omega

/-- A group that holds its whole sequence is not marked.

**Proof sketch.** It buffers as many messages as the sequence has positions, and it counts as
received what it buffers and what it has released. -/
lemma marks_of_hasWholeSequence (h : g.Reflects accepted) (hwhole : g.hasWholeSequence = true) :
    c.marks g = false := by
  rw [← Bool.not_eq_true, marks_iff]
  rintro ⟨-, s, hs, hlt⟩
  have hlength : s.toNat ≤ g.length := by
    simp only [Group.hasWholeSequence, hs, Bool.and_eq_true, decide_eq_true_eq] at hwhole
    exact hwhole.1
  have hreceived := h.received_eq
  omega

/-- Where groups are released run by run, what a ready group leaves behind is in step with what it
has accepted, as long as that does not take every position there is.

**Proof sketch.** A run that drains the group has released every position, so no mark is left; a run
that does not drain it keeps it in step. -/
lemma follows_settle_of_runs (hprov : c.processor.isProvided = true)
    (hp : c.processor.releasesRuns = true) (h : c.Follows g accepted)
    (hfree : ¬ Covers accepted last.toNat) (he : (c.settle g).1 = some left) :
    c.Follows left accepted := by
  obtain ⟨r, hproc, hr⟩ := exists_resequencer hprov hp
  obtain ⟨k, -, hnext, hleft, hdrained, -⟩ := h.reflects.releaseRun h.undrained hfree
  rw [settle_of_runs hproc hr] at he
  cases hd : g.releaseRun.2.isDrained with
  | true =>
    obtain ⟨s, hs, hse⟩ := hdrained hd
    have hmark := marks_of_released (c := c) hleft hs (by omega)
    rw [hd, if_pos rfl, hmark] at he
    simp at he
  | false =>
    rw [hd, if_neg (by simp)] at he
    obtain rfl : g.releaseRun.2 = left := Option.some.inj he
    exact ⟨hleft, hd, fun hn => absurd hn (by rw [hp]; simp)⟩

/-- Where groups are not released run by run, what a ready group leaves behind is a mark: the
barrier has never moved. -/
lemma isMark_settle_of_whole (hp : c.processor.releasesRuns = false) (h : c.Follows g accepted)
    (he : (c.settle g).1 = some left) : c.IsMark left := by
  rw [settle_fst_of_unmoved hp] at he
  split at he
  · rename_i hmark
    obtain ⟨hlate, hlt⟩ := (marks_iff g).1 hmark
    obtain rfl : g.complete = left := Option.some.inj he
    exact ⟨hlate, rfl, rfl, h.unmoved hp, hlt⟩
  · simp at he

/-- What a ready group leaves behind is in step with what it has accepted where groups are released
run by run (`follows_settle_of_runs`), and elsewhere it is a mark (`isMark_settle_of_whole`). -/
theorem tracks_settle (hprov : c.processor.isProvided = true) (h : c.Follows g accepted)
    (hfit : ∀ m ∈ accepted, c.Fits m)
    (he : (c.settle g).1 = some left) : c.Tracks left accepted := by
  cases hp : c.processor.releasesRuns with
  | false => exact .inr (isMark_settle_of_whole hp h he)
  | true =>
    exact .inl (follows_settle_of_runs hprov hp h (not_covers_last fun m hm => hfit m hm hp) he)

/-- What a group leaves behind that a message joins is in step with what it has accepted then, or a
mark. -/
theorem tracks_receive (hprov : c.processor.isProvided = true) (h : c.Follows g accepted)
    (hw : g.Welcomes m) (hwf : m.isWellFormed = true) (hfit : ∀ a ∈ accepted ++ [m], c.Fits a)
    (he : (c.receive g m).1 = some left) : c.Tracks left (accepted ++ [m]) := by
  have hjoin := h.join hw hwf
  unfold receive at he
  split at he
  · exact tracks_settle hprov hjoin hfit he
  · obtain rfl : g.join m = left := Option.some.inj he
    exact .inl hjoin

/-! ## Along a lifetime -/

variable {σ : Type} {t : Transport σ} {key : Key} {w : World σ} {now : Instant}

/-- A group that takes a message is in step with the lifetime so far, given that stored groups
are. -/
private lemma follows_groupOf_of {front : List Call} {call : Call} {strict : Bool}
    (hl : c.Lifetime t key w (front ++ [call]))
    (ih : ∀ g, groupIn (c.after t w front) key = some g → c.Tracks g (c.history t key w front))
    (hw : ((c.after t w front).holdings.store.groupOf key now).objection? m strict = none) :
    c.Follows ((c.after t w front).holdings.store.groupOf key now)
      (c.history t key w front) := by
  have hwel := Group.welcomes_of_objection?_eq_none hw
  cases hg : groupIn (c.after t w front) key with
  | none =>
    obtain rfl := hl.eq_nil_of_absent hg
    rw [Store.groupOf_of_absent hg]
    exact follows_new key now
  | some g =>
    rw [Store.groupOf_of_get? hg] at hwel ⊢
    rcases ih g hg with h | h
    · exact h
    · have := h.completed
      rw [hwel.isOpen] at this
      simp at this

/-- Every message of a history fits if every message handed in does. -/
lemma fits_history (t : Transport σ) (key : Key) (w : World σ) {calls : List Call}
    (hfit : ∀ m now, Call.handle m now ∈ calls → c.Fits m) :
    ∀ m ∈ c.history t key w calls, c.Fits m := by
  intro m hm
  obtain ⟨⟨now, hmem⟩, -⟩ := c.mem_history t key hm
  exact hfit m now hmem

/-- Every stored group is in step with its lifetime.

**Proof sketch.** Induction on the calls of the lifetime, the last one first. The last call leaves
the group alone, or removes it, or a message joins the group that the calls before have left. -/
theorem tracks_of_lifetime (hprov : c.processor.isProvided = true)
    (hv : w.holdings.store.Valid) {calls : List Call} (hl : c.Lifetime t key w calls)
    (hfit : ∀ m now, Call.handle m now ∈ calls → c.Fits m) {g : Group}
    (hg : groupIn (c.after t w calls) key = some g) :
    c.Tracks g (c.history t key w calls) := by
  induction calls using List.reverseRecOn generalizing g with
  | nil =>
    rw [after_nil, hl.absent] at hg
    simp at hg
  | append_singleton front call ih =>
    have ih' : ∀ g, groupIn (c.after t w front) key = some g →
        c.Tracks g (c.history t key w front) :=
      fun g hg => ih hl.front (fun m now hm => hfit m now (List.mem_append_left _ hm)) hg
    have hfit' := fits_history t key w hfit
    rw [after_concat] at hg
    rw [history_concat] at hfit' ⊢
    cases c.turn t key (c.valid_after t hv front) call with
    | idle same acc =>
      rw [acc, List.append_nil]
      exact ih' g (same.symm.trans hg)
    | closed _ gone => rw [gone] at hg; simp at hg
    | joined m now handed isFor wellFormed welcome next acc =>
      rw [acc] at hfit' ⊢
      exact tracks_receive hprov (follows_groupOf_of hl ih' welcome)
        (Group.welcomes_of_objection?_eq_none welcome) wellFormed hfit' (next.symm.trans hg)

/-- A group that takes a message is in step with the lifetime so far. -/
theorem follows_groupOf (hprov : c.processor.isProvided = true) (hv : w.holdings.store.Valid)
    {front : List Call} {call : Call}
    {strict : Bool} (hl : c.Lifetime t key w (front ++ [call]))
    (hfit : ∀ m now, Call.handle m now ∈ front → c.Fits m)
    (hw : ((c.after t w front).holdings.store.groupOf key now).objection? m strict = none) :
    c.Follows ((c.after t w front).holdings.store.groupOf key now)
      (c.history t key w front) :=
  follows_groupOf_of hl (fun _ hg => tracks_of_lifetime hprov hv hl.front hfit hg) hw

/-- What has been accepted in a lifetime is what some group has been in step with. -/
lemma exists_follows (hprov : c.processor.isProvided = true)
    (hv : w.holdings.store.Valid) {calls : List Call} (hl : c.Lifetime t key w calls)
    (hfit : ∀ m now, Call.handle m now ∈ calls → c.Fits m) :
    ∃ g, c.Follows g (c.history t key w calls) := by
  induction calls using List.reverseRecOn with
  | nil => exact ⟨_, follows_new key default⟩
  | append_singleton front call ih =>
    have hfit' : ∀ m now, Call.handle m now ∈ front → c.Fits m :=
      fun m now hm => hfit m now (List.mem_append_left _ hm)
    rw [history_concat]
    cases c.turn t key (c.valid_after t hv front) call with
    | idle same acc =>
      rw [acc, List.append_nil]
      exact ih hl.front hfit'
    | closed early gone acc =>
      rw [acc, List.append_nil]
      exact ih hl.front hfit'
    | joined m now handed isFor wellFormed welcome next acc =>
      rw [acc]
      exact ⟨_, (follows_groupOf hprov hv hl hfit' welcome).join
        (Group.welcomes_of_objection?_eq_none welcome) wellFormed⟩

/-- What has been evicted from a group in a lifetime is what lies beyond the end of its sequence. -/
theorem evictions_eq (hprov : c.processor.isProvided = true)
    (hv : w.holdings.store.Valid) {calls : List Call} (hl : c.Lifetime t key w calls)
    (hfit : ∀ m now, Call.handle m now ∈ calls → c.Fits m) :
    c.evictions t key w calls =
      (c.history t key w calls).filter (!Group.isInside (told (c.history t key w calls)) ·) := by
  induction calls using List.reverseRecOn with
  | nil => rfl
  | append_singleton front call ih =>
    have hfit' : ∀ m now, Call.handle m now ∈ front → c.Fits m :=
      fun m now hm => hfit m now (List.mem_append_left _ hm)
    rw [history_concat, evictions_concat, ih hl.front hfit']
    cases c.turn t key (c.valid_after t hv front) call with
    | idle same acc evicted => rw [acc, evicted, List.append_nil, List.append_nil]
    | closed early gone acc evicted => rw [acc, evicted, List.append_nil, List.append_nil]
    | joined m now handed isFor wellFormed welcome next acc evicted =>
      have hr := (follows_groupOf hprov hv hl hfit' welcome).reflects
      rw [acc, evicted, told_concat, ← hr.size_eq]
      exact (hr.filter_outside_join (Group.welcomes_of_objection?_eq_none welcome)
        wellFormed).symm

/-- What has joined a group in a lifetime and has not been evicted is what does not lie beyond the
end of its sequence. -/
lemma kept_eq (hprov : c.processor.isProvided = true)
    (hv : w.holdings.store.Valid) {calls : List Call} (hl : c.Lifetime t key w calls)
    (hfit : ∀ m now, Call.handle m now ∈ calls → c.Fits m) :
    c.kept t key w calls =
      (c.history t key w calls).filter (Group.isInside (told (c.history t key w calls))) := by
  rw [kept, evictions_eq hprov hv hl hfit]
  apply List.filter_congr
  intro m hm
  simp [hm]

end Collector

end Regroup
