import Regroup.Proofs.Collector.Tracking

/-!
# How far a resequencer has got

A resequencer that releases by its own rule sends the messages of a lifetime by ascending position,
whether it releases runs or whole sequences. What it has sent is a stretch that begins at the first
position, and every message that joins lets the stretch grow by what is due then.

## Main definitions

* `Regroup.Collector.Resequences` — that a collector resequences by its own rule.
* `Regroup.Collector.Advances` — what becomes of a group that a message has joined.
* `Regroup.Collector.Progress` — how far a lifetime has got.

## Main results

* `Regroup.Collector.receive_advances` — a group that a message joins advances.
* `Regroup.Collector.exists_progress` — every lifetime has got to some position.
-/

namespace Regroup.Collector

open SequenceNumber

/-- A collector resequences, and takes a group to be ready when the resequencer could release
something. -/
structure Resequences (c : Collector) (r : Resequencer) : Prop where
  processor_eq : c.processor = .resequence r
  releaseRule_eq : c.releaseRule = .resequencing r

/-- A collector put together to resequence, without a rule of its own, does so. -/
lemma resequences_resequencing (settings : Settings) (keyRule : KeyRule) (discards : Bool) :
    (resequencing settings keyRule none discards).Resequences ⟨settings.releasesRuns⟩ :=
  ⟨rfl, rfl⟩

variable {c : Collector} {r : Resequencer} {g : Group} {m : Message} {accepted : List Message}

/-- A collector releases run by run if its resequencer does. -/
lemma Resequences.releasesRuns_eq (hc : c.Resequences r) :
    c.processor.releasesRuns = r.releasesRuns := by
  rw [hc.processor_eq]
  rfl

/-- Where runs are released a group is ready once it holds the position due next. -/
lemma Resequences.isReady_of_runs (hc : c.Resequences r) (hr : r.releasesRuns = true) (g : Group) :
    c.releaseRule.isReady g = g.holds g.barrier.next := by
  rw [hc.releaseRule_eq]
  simp only [ReleaseRule.isReady, hr, if_true]

/-- Where no runs are released a group is ready once it holds the whole sequence. -/
lemma Resequences.isReady_of_whole (hc : c.Resequences r) (hr : r.releasesRuns = false)
    (g : Group) : c.releaseRule.isReady g = g.hasWholeSequence := by
  rw [hc.releaseRule_eq]
  simp only [ReleaseRule.isReady, hr, Bool.false_eq_true, if_false]

/-! ## One message -/

/-- What becomes of a group from position `a` on that a message has joined: the accepted messages
at the next `k` positions are released, and the group is there behind them with nothing more to
release, or it has come to its end. -/
structure Advances (c : Collector) (accepted : List Message) (a k : ℕ)
    (result : Option Group × List Send) : Prop where
  covers : Covers accepted (a + k - 1)
  stays : ∀ left, result.1 = some left →
    c.Follows left accepted ∧ c.releaseRule.isReady left = false ∧
      left.barrier.next.toNat = a + k ∧ result.2 = (firstsFrom accepted a k).map Send.release
  ends : result.1 = none →
    ∃ s, told accepted = some s ∧ a + k = s.toNat + 1 ∧
      result.2 = (firstsFrom accepted a k).map Send.release ++
        c.discardPlan (accepted.filter (!·.isNumbered))

/-- A run of a resequencer lets its group advance. -/
private lemma settle_advances_of_runs (hc : c.Resequences r) (hr : r.releasesRuns = true)
    (h : c.Follows g accepted) (hfit : ∀ m ∈ accepted, c.Fits m) :
    ∃ k, c.Advances accepted g.barrier.next.toNat k (c.settle g) := by
  have hp := hc.releasesRuns_eq.trans hr
  obtain ⟨k, hrel, hnext, hleft, hdrained, hstop⟩ :=
    h.reflects.releaseRun h.undrained (not_covers_last fun m hm => hfit m hm hp)
  refine ⟨k, ?_⟩
  have hcov := hleft.covers
  rw [hnext] at hcov
  rw [settle_of_runs hc.processor_eq hr, hrel]
  cases hd : g.releaseRun.2.isDrained with
  | true =>
    obtain ⟨s, hs, hse⟩ := hdrained hd
    rw [if_pos rfl, marks_of_released hleft hs (by omega),
      hleft.messages_of_released hs (by omega)]
    refine ⟨hcov, by simp, fun _ => ⟨s, ?_, by omega, rfl⟩⟩
    rw [← h.reflects.size_eq, hs]
  | false =>
    rw [if_neg (by simp)]
    refine ⟨hcov, fun left he => ?_, by simp⟩
    obtain rfl : g.releaseRun.2 = left := Option.some.inj he
    refine ⟨⟨hleft, hd, fun hn => absurd (hp.symm.trans hn) (by simp)⟩, ?_, hnext, rfl⟩
    rw [hc.isReady_of_runs hr, ← Bool.not_eq_true, Group.holds_iff]
    rintro ⟨x, hx, hxn⟩
    exact hstop hd x (g.perm_releaseRun.subset (List.mem_append_right _ hx)) hxn

/-- A group of which nothing has been released holds the whole sequence once all positions have
been accepted. -/
lemma Follows.hasWholeSequence (h : c.Follows g accepted) (hstart : g.barrier = .start)
    {n : SequenceNumber} (hn : told accepted = some n) (hcov : Covers accepted n.toNat) :
    g.hasWholeSequence = true := by
  rw [Group.hasWholeSequence_iff]
  refine ⟨n, h.reflects.size_eq.trans hn, fun i hi hle => ?_⟩
  obtain ⟨a, ha, hai⟩ := hcov i hi hle
  refine ⟨a, ?_, hai⟩
  rw [h.reflects.messages_eq, List.mem_filter, Bool.and_eq_true, Group.isInside_iff,
    Barrier.retains_iff, h.reflects.size_eq, hn, hstart]
  refine ⟨ha, fun s hs i' hi' => ?_, fun i' hi' => ?_⟩
  · obtain rfl : n = s := Option.some.inj hs
    obtain rfl : i = i' := Option.some.inj (hai.symm.trans hi')
    exact hle
  · obtain rfl : i = i' := Option.some.inj (hai.symm.trans hi')
    exact toNat_pos hi

/-- An open group holds the position due next once all positions of its sequence have been
accepted. -/
lemma Follows.holds_next (h : c.Follows g accepted) {n : SequenceNumber}
    (hn : told accepted = some n) (hcov : Covers accepted n.toNat) :
    g.holds g.barrier.next = true := by
  -- the group is not drained, so its next position is one of the sequence
  have hle := h.next_le (h.reflects.size_eq.trans hn)
  obtain ⟨a, ha, han⟩ := hcov g.barrier.next (ne_zero h.reflects.next_pos) hle
  rw [Group.holds_iff]
  refine ⟨a, ?_, han⟩
  rw [h.reflects.messages_eq, List.mem_filter, Bool.and_eq_true, Group.isInside_iff,
    Barrier.retains_iff, h.reflects.size_eq, hn]
  refine ⟨ha, fun s hs i hi => ?_, fun i hi => ?_⟩
  · obtain rfl : n = s := Option.some.inj hs
    obtain rfl : g.barrier.next = i := Option.some.inj (han.symm.trans hi)
    exact hle
  · obtain rfl : g.barrier.next = i := Option.some.inj (han.symm.trans hi)
    exact le_rfl

/-- An open group is ready once all positions of its sequence have been accepted. -/
lemma Follows.isReady_of_covers (h : c.Follows g accepted) (hc : c.Resequences r)
    {n : SequenceNumber} (hn : told accepted = some n) (hcov : Covers accepted n.toNat) :
    c.releaseRule.isReady g = true := by
  cases hr : r.releasesRuns with
  | false =>
    rw [hc.isReady_of_whole hr]
    exact h.hasWholeSequence (h.unmoved (hc.releasesRuns_eq.trans hr)) hn hcov
  | true =>
    rw [hc.isReady_of_runs hr]
    exact h.holds_next hn hcov

/-- The whole sequence lets its group advance to the end. -/
private lemma settle_advances_of_whole (hc : c.Resequences r) (hr : r.releasesRuns = false)
    (h : c.Follows g accepted) (hready : g.hasWholeSequence = true) :
    ∃ k, c.Advances accepted g.barrier.next.toNat k (c.settle g) := by
  obtain ⟨s, hs, hcov⟩ := (g.hasWholeSequence_iff).1 hready
  have hnext : g.barrier.next.toNat = 1 := by
    rw [h.unmoved (hc.releasesRuns_eq.trans hr)]
    rfl
  have htaken : g.takeNumbered.1 = firstsFrom accepted 1 s.toNat := by
    rw [h.reflects.takeNumbered h.undrained, hnext, hs]
    rfl
  have hmark : c.marks g = false := marks_of_hasWholeSequence h.reflects hready
  refine ⟨s.toNat, ?_⟩
  unfold settle
  rw [hc.processor_eq, Processor.process_whole hr]
  show c.Advances accepted _ _ (if c.marks g then _ else none,
    g.takeNumbered.1.map Send.release ++ c.discardPlan g.takeNumbered.2.messages)
  rw [hmark, if_neg (by simp), htaken, hnext]
  refine ⟨?_, by simp, fun _ => ⟨s, ?_, by omega, ?_⟩⟩
  · intro n hn hle
    obtain ⟨x, hx, hxn⟩ := hcov n hn (by omega)
    exact ⟨x, h.reflects.mem_accepted hx, hxn⟩
  · rw [← h.reflects.size_eq, hs]
  · rw [← h.reflects.filter_unnumbered]
    rfl

/-- A group that a message has joined advances.

**Proof sketch.** A group that is not ready stays where it is. In a ready one a run is due, whose
end is a missing position or the end of the sequence, or the whole sequence is there. -/
theorem receive_advances (hc : c.Resequences r) (h : c.Follows (g.join m) accepted)
    (hfit : ∀ m ∈ accepted, c.Fits m) :
    ∃ k, c.Advances accepted g.barrier.next.toNat k (c.receive g m) := by
  have hnext : (g.join m).barrier.next.toNat = g.barrier.next.toNat := by rw [Group.barrier_join]
  unfold receive
  cases hready : c.releaseRule.isReady (g.join m) with
  | false =>
    rw [if_neg (by simp)]
    refine ⟨0, ?_, fun left he => ?_, by simp⟩
    · rw [Nat.add_zero, ← hnext]
      exact h.reflects.covers
    · obtain rfl : g.join m = left := Option.some.inj he
      exact ⟨h, hready, hnext, rfl⟩
  | true =>
    rw [if_pos rfl, ← hnext]
    cases hr : r.releasesRuns with
    | true => exact settle_advances_of_runs hc hr h hfit
    | false =>
      rw [hc.isReady_of_whole hr] at hready
      exact settle_advances_of_whole hc hr h hready

namespace Advances

variable {a k : ℕ} {result : Option Group × List Send}

/-- Where every accepted message has a position nothing is discarded. -/
lemma plan_eq (h : c.Advances accepted a k result)
    (hnone : accepted.filter (!·.isNumbered) = []) :
    result.2 = (firstsFrom accepted a k).map Send.release := by
  cases he : result.1 with
  | none =>
    obtain ⟨s, -, -, hplan⟩ := h.ends he
    rw [hplan, hnone, discardPlan, List.map_nil, ite_self, List.append_nil]
  | some left => exact (h.stays left he).2.2.2

/-- What is sent to the output path is the stretch by which the group advances. -/
lemma filter_isOutput (h : c.Advances accepted a k result) :
    result.2.filter (·.isOutput) = (firstsFrom accepted a k).map Send.release := by
  cases he : result.1 with
  | none =>
    obtain ⟨s, -, -, hplan⟩ := h.ends he
    rw [hplan, filter_isOutput_plan]
  | some left =>
    obtain ⟨-, -, -, hplan⟩ := h.stays left he
    have := c.filter_isOutput_plan (firstsFrom accepted a k) []
    simp only [discardPlan, List.map_nil, ite_self, List.append_nil] at this
    rw [hplan, this]

/-- Only a group that has come to its end discards something: the messages without a position. -/
lemma filter_not_isOutput (h : c.Advances accepted a k result) :
    result.2.filter (!·.isOutput) =
      if result.1 = none then c.discardPlan (accepted.filter (!·.isNumbered)) else [] := by
  cases he : result.1 with
  | none =>
    obtain ⟨s, -, -, hplan⟩ := h.ends he
    rw [hplan, filter_not_isOutput_plan, if_pos rfl]
  | some left =>
    obtain ⟨-, -, -, hplan⟩ := h.stays left he
    rw [hplan, if_neg (by simp), List.filter_eq_nil_iff]
    intro x hx
    obtain ⟨m, -, rfl⟩ := List.mem_map.1 hx
    simp

/-- A group has come to its end exactly if all positions of its sequence have been accepted. -/
lemma fst_eq_none_iff (h : c.Advances accepted a k result) (hc : c.Resequences r) :
    result.1 = none ↔ ∃ s, told accepted = some s ∧ Covers accepted s.toNat := by
  constructor
  · intro he
    obtain ⟨s, hs, hend, -⟩ := h.ends he
    have hcov := h.covers
    rw [hend, Nat.add_sub_cancel] at hcov
    exact ⟨s, hs, hcov⟩
  · rintro ⟨s, hs, hcov⟩
    by_contra hne
    obtain ⟨left, he⟩ := Option.ne_none_iff_exists'.1 hne
    obtain ⟨hf, hready, -, -⟩ := h.stays left he
    rw [hf.isReady_of_covers hc hs hcov] at hready
    simp at hready

/-- A resequencer of runs stops only where no message of the sequence has been accepted. -/
lemma stopped (h : c.Advances accepted a k result) (hc : c.Resequences r)
    (hr : r.releasesRuns = true) :
    ∀ m ∈ accepted, Group.isInside (told accepted) m = true →
      ∀ n, m.number = some n → n.toNat ≠ a + k := by
  intro m hm hin n hn heq
  cases he : result.1 with
  | none =>
    obtain ⟨s, hs, hend, -⟩ := h.ends he
    have := (Group.isInside_iff _ _).1 hin s hs n hn
    omega
  | some left =>
    obtain ⟨hf, hready, hnext, -⟩ := h.stays left he
    rw [hc.isReady_of_runs hr] at hready
    have hholds : left.holds left.barrier.next = true := by
      rw [Group.holds_iff]
      refine ⟨m, ?_, hn.trans (congrArg some (UInt32.toNat_inj.1 (by omega)))⟩
      rw [hf.reflects.messages_eq, List.mem_filter, Bool.and_eq_true, hf.reflects.size_eq,
        Barrier.retains_iff]
      refine ⟨hm, hin, fun n' hn' => ?_⟩
      obtain rfl : n = n' := Option.some.inj (hn.symm.trans hn')
      omega
    rw [hready] at hholds
    simp at hholds

/-- No group advances beyond the end of its sequence. -/
lemma le_told (h : c.Advances accepted a k result) {s : SequenceNumber}
    (hs : told accepted = some s) : a + k ≤ s.toNat + 1 := by
  cases he : result.1 with
  | none =>
    obtain ⟨s', hs', hend, -⟩ := h.ends he
    obtain rfl : s = s' := Option.some.inj (hs.symm.trans hs')
    omega
  | some left =>
    obtain ⟨hf, -, hnext, -⟩ := h.stays left he
    have := hf.next_le (hf.reflects.size_eq.trans hs)
    omega

/-- Where a group has advanced to can be told as a position. -/
lemma lt (h : c.Advances accepted a k result) : a + k - 1 < 2 ^ 32 := by
  cases he : result.1 with
  | none =>
    obtain ⟨s, -, hend, -⟩ := h.ends he
    have := s.toNat_lt
    omega
  | some left =>
    obtain ⟨-, -, hnext, -⟩ := h.stays left he
    have := left.barrier.next.toNat_lt
    omega

end Advances

/-! ## A lifetime -/

variable {σ : Type} {t : Transport σ} {key : Key} {w : World σ}

/-- A lifetime has got to position `m`: what was to be sent to the output path are the first
accepted messages at the positions up to `m`, and no position up to `m` is missing. -/
structure Progress (c : Collector) (t : Transport σ) (key : Key) (w : World σ) (calls : List Call)
    (m : ℕ) : Prop where
  /-- The first messages at the positions up to `m` have been released. -/
  releases_eq : c.releases t key w calls =
    (firsts (c.history t key w calls) m).map Send.release
  /-- None of these positions is missing. -/
  covers : Covers (c.history t key w calls) m
  /-- The position can be told. -/
  lt : m < 2 ^ 32
  /-- It does not lie beyond the end of the sequence. -/
  le_told : ∀ s, told (c.history t key w calls) = some s → m ≤ s.toNat
  /-- Where runs are released no message of the sequence has been accepted at the next position. -/
  stopped : c.processor.releasesRuns = true → ∀ a ∈ c.history t key w calls,
    Group.isInside (told (c.history t key w calls)) a = true →
      ∀ n, a.number = some n → n.toNat ≠ m + 1
  /-- The group, while it is there, is in step, and has nothing to release. -/
  stored : ∀ g, groupIn (c.after t w calls) key = some g →
    c.Follows g (c.history t key w calls) ∧ c.releaseRule.isReady g = false ∧
      g.barrier.next.toNat = m + 1 ∧
      c.history t key w calls ≠ []
  /-- Handing in a message removes a group only at the end of its sequence. -/
  gone : ∀ front x now, calls = front ++ [.handle x now] →
    groupIn (c.after t w calls) key = none → c.history t key w calls ≠ [] →
      ∃ s, told (c.history t key w calls) = some s ∧ m = s.toNat

/-- Before its first call a lifetime has got nowhere. -/
private lemma progress_nil (h : groupIn w key = none) : c.Progress t key w [] 0 where
  releases_eq := rfl
  covers n hn hle := absurd hle (by have := toNat_pos hn; omega)
  lt := by omega
  le_told s hs := by simp [history, collect] at hs
  stopped _ a ha := by simp [history, collect] at ha
  stored g hg := by rw [after_nil, h] at hg; simp at hg
  gone front x now he := by simp at he

/-- A lifetime that has got to a position without accepting anything has got nowhere. -/
lemma Progress.eq_zero {calls : List Call} {m : ℕ} (h : c.Progress t key w calls m)
    (he : c.history t key w calls = []) : m = 0 := by
  by_contra hm
  obtain ⟨a, ha, -⟩ := h.covers 1 (by decide) (by rw [UInt32.toNat_one]; omega)
  rw [he] at ha
  simp at ha

/-- A group that meets a message, new or not, is in step with the lifetime and stands behind the
position that it has got to. -/
lemma Progress.groupOf {front : List Call} {call : Call} {m : ℕ} (h : c.Progress t key w front m)
    (hl : c.Lifetime t key w (front ++ [call])) (now : Instant) :
    c.Follows ((c.after t w front).holdings.store.groupOf key now) (c.history t key w front) ∧
      ((c.after t w front).holdings.store.groupOf key now).barrier.next.toNat = m + 1 := by
  cases hg : groupIn (c.after t w front) key with
  | some g =>
    rw [Store.groupOf_of_get? hg]
    obtain ⟨hf, -, hnext, -⟩ := h.stored g hg
    exact ⟨hf, hnext⟩
  | none =>
    obtain rfl := hl.eq_nil_of_absent hg
    rw [Store.groupOf_of_absent hg, h.eq_zero rfl]
    exact ⟨follows_new key now, rfl⟩

/-- A call that leaves history and releases alone leaves the progress as it is. -/
private lemma Progress.concat_of_quiet {front : List Call} {call : Call} {m : ℕ}
    (h : c.Progress t key w front m) (hacc : c.accepted key (c.after t w front) call = [])
    (hrel : c.released key (c.after t w front) call = [])
    (hstored : ∀ g, groupIn (c.perform t (c.after t w front) call).world key = some g →
      groupIn (c.after t w front) key = some g)
    (hgone : ∀ x now, call = .handle x now →
      groupIn (c.perform t (c.after t w front) call).world key = none →
        c.history t key w front = []) :
    c.Progress t key w (front ++ [call]) m := by
  have hhist : c.history t key w (front ++ [call]) = c.history t key w front := by
    rw [history_concat, hacc, List.append_nil]
  constructor
  · rw [releases_concat, hrel, List.append_nil, hhist]
    exact h.releases_eq
  · rw [hhist]
    exact h.covers
  · exact h.lt
  · rw [hhist]
    exact h.le_told
  · rw [hhist]
    exact h.stopped
  · intro g hg
    rw [after_concat] at hg
    rw [hhist]
    exact h.stored g (hstored g hg)
  · intro front' x now he hg hne
    obtain ⟨rfl, hcall⟩ := List.append_inj' he rfl
    rw [after_concat] at hg
    rw [hhist] at hne
    exact absurd (hgone x now (List.singleton_inj.1 hcall) hg) hne

/-- A message that joins lets a lifetime make progress.

**Proof sketch.** The group stood behind the position that the lifetime has got to, so it advances
from there. The positions released before are covered, so what comes later does not change the
first messages at them. -/
private lemma Progress.concat_of_joined (hc : c.Resequences r) {front : List Call} {x : Message}
    {now : Instant} {m : ℕ} (h : c.Progress t key w front m)
    (hfollows : c.Follows (((c.after t w front).holdings.store.groupOf key now).join x)
      (c.history t key w front ++ [x]))
    (hfit : ∀ a ∈ c.history t key w front ++ [x], c.Fits a)
    (hnext : ((c.after t w front).holdings.store.groupOf key now).barrier.next.toNat = m + 1)
    (hacc : c.accepted key (c.after t w front) (.handle x now) = [x])
    (hrel : c.released key (c.after t w front) (.handle x now) =
      (c.receive ((c.after t w front).holdings.store.groupOf key now) x).2.filter (·.isOutput))
    (hgroup : groupIn (c.perform t (c.after t w front) (.handle x now)).world key =
      (c.receive ((c.after t w front).holdings.store.groupOf key now) x).1) :
    ∃ m', c.Progress t key w (front ++ [.handle x now]) m' := by
  obtain ⟨k, hk⟩ := receive_advances hc hfollows hfit
  rw [hnext] at hk
  rw [← after_concat] at hgroup
  have hhist : c.history t key w (front ++ [.handle x now]) = c.history t key w front ++ [x] := by
    rw [history_concat, hacc]
  refine ⟨m + k, ?_⟩
  constructor
  · rw [releases_concat, hrel, hk.filter_isOutput, h.releases_eq, hhist, ← List.map_append]
    congr 1
    rw [← firsts_append h.covers h.lt [x], firsts, firsts, firstsFrom_add, Nat.add_comm 1 m]
  · rw [hhist]
    have := hk.covers
    rwa [show m + 1 + k - 1 = m + k by omega] at this
  · have := hk.lt
    omega
  · intro s hs
    rw [hhist] at hs
    have := hk.le_told hs
    omega
  · intro hp a ha hin n hn
    rw [hhist] at ha hin
    have := hk.stopped hc (hc.releasesRuns_eq.symm.trans hp) a ha hin n hn
    omega
  · intro g hg
    obtain ⟨hf, hready, hstand, -⟩ := hk.stays g (hgroup.symm.trans hg)
    rw [hhist]
    exact ⟨hf, hready, by omega, by simp⟩
  · intro _ _ _ _ hg _
    obtain ⟨s, hs, hend, -⟩ := hk.ends (hgroup.symm.trans hg)
    rw [hhist]
    exact ⟨s, hs, by omega⟩

/-- Every lifetime of a resequencer has got to some position.

**Proof sketch.** Induction on the calls, the last one first. A call that adds nothing to the group
leaves the progress as it is; a message that joins the group lets it advance. -/
theorem exists_progress (hc : c.Resequences r) (hv : w.holdings.store.Valid) {calls : List Call}
    (hl : c.Lifetime t key w calls) (hfit : ∀ m now, Call.handle m now ∈ calls → c.Fits m) :
    ∃ m, c.Progress t key w calls m := by
  induction calls using List.reverseRecOn with
  | nil => exact ⟨0, progress_nil hl.absent⟩
  | append_singleton front call ih =>
    have hfit' : ∀ m now, Call.handle m now ∈ front → c.Fits m :=
      fun m now hm => hfit m now (List.mem_append_left _ hm)
    have hfits := fits_history t key w hfit
    have hempty : groupIn (c.after t w front) key = none → c.history t key w front = [] := by
      intro hnone
      rw [hl.eq_nil_of_absent hnone]
      rfl
    obtain ⟨m, hm⟩ := ih hl.front hfit'
    cases c.turn t key (c.valid_after t hv front) call with
    | idle same acc _ rel =>
      exact ⟨m, hm.concat_of_quiet acc rel (fun g hg => same.symm.trans hg)
        fun x now _ hg => hempty (same.symm.trans hg)⟩
    | closed early gone acc _ rel =>
      refine ⟨m, hm.concat_of_quiet acc rel (fun g hg => ?_)
        fun x now he => absurd he (early x now)⟩
      rw [gone] at hg
      simp at hg
    | joined x now handed isFor wellFormed welcome next acc _ plan =>
      subst handed
      rw [history_concat, acc] at hfits
      refine hm.concat_of_joined hc ?_ hfits (hm.groupOf hl now).2 acc ?_ next
      · exact (hm.groupOf hl now).1.join (Group.welcomes_of_objection?_eq_none welcome) wellFormed
      · rw [released, if_pos isFor, plan]

/-- Once all positions of a sequence have been accepted its group is gone. -/
lemma Progress.groupIn_eq_none {calls : List Call} {m : ℕ} {n : SequenceNumber}
    (h : c.Progress t key w calls m) (hc : c.Resequences r)
    (hn : told (c.history t key w calls) = some n)
    (hcov : Covers (c.history t key w calls) n.toNat) :
    groupIn (c.after t w calls) key = none := by
  by_contra hne
  obtain ⟨g, hg⟩ := Option.ne_none_iff_exists'.1 hne
  obtain ⟨hf, hready, -, -⟩ := h.stored g hg
  rw [hf.isReady_of_covers hc hn hcov] at hready
  simp at hready

/-- Handing in a message leaves no group exactly where none was opened or the lifetime has got to
the end of the sequence. -/
lemma Progress.groupIn_eq_none_iff {front : List Call} {x : Message} {now : Instant} {m : ℕ}
    (h : c.Progress t key w (front ++ [.handle x now]) m) :
    groupIn (c.after t w (front ++ [.handle x now])) key = none ↔
      c.history t key w (front ++ [.handle x now]) = [] ∨
        ∃ s, told (c.history t key w (front ++ [.handle x now])) = some s ∧ s.toNat = m := by
  constructor
  · intro hnone
    by_cases hempty : c.history t key w (front ++ [.handle x now]) = []
    · exact .inl hempty
    · obtain ⟨s, hs, hms⟩ := h.gone front x now rfl hnone hempty
      exact .inr ⟨s, hs, hms.symm⟩
  · intro hend
    by_contra hne
    obtain ⟨g, hg⟩ := Option.ne_none_iff_exists'.1 hne
    obtain ⟨hf, -, hnext, hnonempty⟩ := h.stored g hg
    obtain ⟨s, hs, hms⟩ := hend.resolve_left hnonempty
    have := hf.next_le (hf.reflects.size_eq.trans hs)
    omega

end Regroup.Collector
