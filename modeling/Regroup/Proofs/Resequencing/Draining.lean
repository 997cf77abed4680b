import Mathlib.Logic.Function.Iterate
import Regroup.Message.Edit
import Regroup.Proofs.Collector.Origin
import Regroup.Proofs.Resequencing.Progress

/-!
# Groups that are drained

A barrier steps over one position after the other. Behind the last position of all it starts from
the front again, so a step counts up unless it is made from there. Where groups are released run by
run, that takes every position there is in one lifetime of a group. In every other lifetime the
barrier counts up, by whatever rule groups are declared ready, and a group whose whole sequence has
been accepted is drained and removed as soon as it is ready. By every rule but the count rule it is
ready then.

## Main definitions

* `Regroup.Barrier.CountsUp` — that the barrier stands one further behind a step.
* `Regroup.Group.StepsCountUp` — that it does so behind every step of a run.
* `Regroup.ReleaseRule.awaitsWhole` — whether a rule waits for the whole sequence.
* `Regroup.Collector.Waiting` — how a group stands between two calls.
* `Regroup.Collector.Drains` — how a lifetime drains its group.

## Main results

* `Regroup.Group.StemsFrom.stepsCountUp` — which runs count up.
* `Regroup.Collector.Follows.drained` — a run drains a group whose sequence has been accepted.
* `Regroup.Collector.waiting_of_lifetime` — how stored groups stand.
* `Regroup.Collector.drains_of_lifetime` — the barrier counts up, and the group is drained.
-/

namespace Regroup

open SequenceNumber

/-! ## Steps -/

namespace Barrier

/-- The barrier stands one further behind a step. -/
def CountsUp (b : Barrier) : Prop := b.step.next.toNat = b.next.toNat + 1

instance (b : Barrier) : Decidable b.CountsUp :=
  inferInstanceAs (Decidable (b.step.next.toNat = b.next.toNat + 1))

/-- Behind `i` steps the barrier stands `i` positions further, as far as these can be told. -/
lemma toNat_next_iterate {b : Barrier} {i : ℕ} (h : b.next.toNat + i < 2 ^ 32) :
    (step^[i] b).next.toNat = b.next.toNat + i := by
  induction i with
  | zero => rfl
  | succ i ih =>
    have hi := ih (by omega)
    have hne : (step^[i] b).next ≠ last := by
      intro e
      rw [e, show last.toNat = 2 ^ 32 - 1 from rfl] at hi
      omega
    rw [Function.iterate_succ_apply', toNat_next_step hne, hi]
    rfl

end Barrier

namespace Group

/-- Taking a run steps once for every message. -/
lemma barrier_run (size : Option SequenceNumber) (rounds : ℕ) (b : Barrier) (ms : List Message) :
    (run size rounds b ms).barrier =
      Barrier.step^[(run size rounds b ms).released.length] b := by
  induction rounds generalizing b ms with
  | zero => rfl
  | succ rounds ih =>
    unfold run
    split
    · rfl
    · split
      · rfl
      · exact ih _ _

/-- Every step of the run that is due next counts up. -/
def StepsCountUp (g : Group) : Prop :=
  ∀ i < g.releaseRun.1.length, (Barrier.step^[i] g.barrier).CountsUp

instance (g : Group) : Decidable g.StepsCountUp :=
  inferInstanceAs (Decidable (∀ i < g.releaseRun.1.length, (Barrier.step^[i] g.barrier).CountsUp))

variable {g : Group} {accepted : List Message}

/-- The steps of a run count up as long as some position has not been taken.

**Proof sketch.** All positions before the barrier have been taken, so one from the barrier on is
missing, and the run ends there at the latest. -/
theorem StemsFrom.stepsCountUp (h : g.StemsFrom accepted) (hfree : ¬ Covers accepted last.toNat) :
    g.StepsCountUp := by
  obtain ⟨n, hle, hn⟩ := exists_missing_of_covers h.covers hfree
  obtain ⟨k, r, hr, he⟩ := g.isRun_releaseRun ⟨n, hle, fun m hm => hn m (h.buffered m hm)⟩
  have hbound : g.barrier.next.toNat + k < 2 ^ 32 := by
    rw [← hr.next_eq]
    exact r.barrier.next.toNat_lt
  intro i hi
  rw [he, hr.length_released] at hi
  rw [Barrier.CountsUp, ← Function.iterate_succ_apply' Barrier.step i,
    Barrier.toNat_next_iterate (by omega), Barrier.toNat_next_iterate (by omega)]
  rfl

end Group

/-! ## When a covered group is ready -/

/-- Whether the rule waits for the whole sequence. -/
def ReleaseRule.awaitsWhole : ReleaseRule → Bool
  | .wholeSequence => true
  | .resequencing r => !r.releasesRuns
  | .always | .count _ | .custom _ => false

/-- By a rule that waits for the whole sequence a ready group holds it. -/
lemma ReleaseRule.isReady_of_awaitsWhole {rule : ReleaseRule} (h : rule.awaitsWhole = true)
    (g : Group) : rule.isReady g = g.hasWholeSequence := by
  cases rule with
  | wholeSequence => rfl
  | resequencing r =>
    have hr : r.releasesRuns = false := by simpa [awaitsWhole] using h
    simp [isReady, hr]
  | always => simp [awaitsWhole] at h
  | count threshold => simp [awaitsWhole] at h
  | custom isReady => simp [awaitsWhole] at h

namespace Collector

variable {c : Collector} {g left : Group} {m : Message} {accepted : List Message}

/-- A group whose whole sequence has been accepted is ready by every rule provided but the count
rule, if its barrier has not moved where the rule waits for the whole sequence. -/
lemma Follows.isReady_or_count (hrule : c.releaseRule.isProvided = true)
    (h : c.Follows g accepted) (hstart : c.releaseRule.awaitsWhole = true → g.barrier = .start)
    {n : SequenceNumber} (hn : told accepted = some n) (hcov : Covers accepted n.toNat) :
    c.releaseRule.isReady g = true ∨ ∃ threshold, c.releaseRule = .count threshold := by
  have hnext := h.holds_next hn hcov
  by_cases hwhole : c.releaseRule.awaitsWhole = true
  · rw [ReleaseRule.isReady_of_awaitsWhole hwhole]
    exact .inl (h.hasWholeSequence (hstart hwhole) hn hcov)
  · cases hkind : c.releaseRule with
    | custom isReady => simp [hkind, ReleaseRule.isProvided] at hrule
    | count threshold => exact .inr ⟨threshold, rfl⟩
    | wholeSequence => simp [hkind, ReleaseRule.awaitsWhole] at hwhole
    | resequencing r =>
      have hr : r.releasesRuns = true := by simpa [hkind, ReleaseRule.awaitsWhole] using hwhole
      left
      simp only [ReleaseRule.isReady, hr, if_true, hnext]
    | always =>
      obtain ⟨a, ha, -⟩ := (g.holds_iff _).1 hnext
      left
      simp only [ReleaseRule.isReady, Bool.not_eq_true', ← Bool.not_eq_true, Group.isEmpty_iff]
      exact List.ne_nil_of_mem ha

/-! ## One message -/

/-- Where groups are resequenced run by run, a run drains a group whose whole sequence has been
accepted, and the group is gone then.

**Proof sketch.** A run that does not drain the group leaves it in step, so it holds the position
due next; but that is where the run has stopped. -/
theorem Follows.drained (h : c.Follows g accepted) (hp : c.processor = .resequence ⟨true⟩)
    (hfree : ¬ Covers accepted last.toNat) {n : SequenceNumber} (hn : told accepted = some n)
    (hcov : Covers accepted n.toNat) :
    g.releaseRun.2.isDrained = true ∧ (c.settle g).1 = none := by
  have hruns : c.processor.releasesRuns = true := by
    rw [hp]
    rfl
  obtain ⟨k, -, -, hleft, hdrained, hstop⟩ := h.reflects.releaseRun h.undrained hfree
  have hd : g.releaseRun.2.isDrained = true := by
    by_contra hd
    rw [Bool.not_eq_true] at hd
    have hfollows : c.Follows g.releaseRun.2 accepted :=
      ⟨hleft, hd, fun hn => absurd (hruns.symm.trans hn) (by simp)⟩
    obtain ⟨a, ha, han⟩ := (Group.holds_iff _ _).1 (hfollows.holds_next hn hcov)
    exact hstop hd a (g.perm_releaseRun.subset (List.mem_append_right _ ha)) han
  obtain ⟨s, hs, hse⟩ := hdrained hd
  refine ⟨hd, ?_⟩
  rw [settle_of_runs hp rfl, if_pos hd, marks_of_released hleft hs (by omega)]
  rfl

variable (c) in
/-- How a group stands between two calls: it is in step, nothing of it has been released where the
rule waits for the whole sequence, and it is not ready if its whole sequence has been accepted. -/
structure Waiting (g : Group) (accepted : List Message) : Prop where
  follows : c.Follows g accepted
  unmoved : c.releaseRule.awaitsWhole = true → g.barrier = .start
  not_ready : ∀ n, told accepted = some n → Covers accepted n.toNat →
    c.releaseRule.isReady g = false

/-- Of the rules provided a group whose whole sequence has been accepted waits only by the count
rule. -/
lemma Waiting.exists_count (hrule : c.releaseRule.isProvided = true) (h : c.Waiting g accepted)
    {n : SequenceNumber} (hn : told accepted = some n) (hcov : Covers accepted n.toNat) :
    ∃ threshold, c.releaseRule = .count threshold := by
  refine (h.follows.isReady_or_count hrule h.unmoved hn hcov).resolve_left ?_
  rw [h.not_ready n hn hcov]
  simp

/-- What is left of a group that a message joins waits.

**Proof sketch.** A group that is not ready stays as it is. A ready one of which the whole sequence
has been accepted is drained and gone, in particular every one that is ready by a rule that waits
for the whole sequence. -/
lemma waiting_receive (hp : c.processor = .resequence ⟨true⟩)
    (h : c.Follows (g.join m) accepted)
    (hstart : c.releaseRule.awaitsWhole = true → g.barrier = .start)
    (hfree : ¬ Covers accepted last.toNat) (he : (c.receive g m).1 = some left) :
    c.Waiting left accepted := by
  unfold receive at he
  cases hready : c.releaseRule.isReady (g.join m) with
  | false =>
    rw [hready, if_neg (by simp)] at he
    obtain rfl : g.join m = left := Option.some.inj he
    exact ⟨h, fun hwhole => (Group.barrier_join g m).trans (hstart hwhole), fun _ _ _ => hready⟩
  | true =>
    rw [hready, if_pos rfl] at he
    have hgone : ∀ n, told accepted = some n → ¬ Covers accepted n.toNat := by
      intro n hn hcov
      rw [(h.drained hp hfree hn hcov).2] at he
      simp at he
    refine ⟨follows_settle_of_runs (by rw [hp]; rfl) (by rw [hp]; rfl) h hfree he, fun hwhole => ?_,
      fun n hn hcov => absurd hcov (hgone n hn)⟩
    rw [ReleaseRule.isReady_of_awaitsWhole hwhole] at hready
    obtain ⟨n, hn, hcov⟩ := (Group.hasWholeSequence_iff _).1 hready
    rw [h.reflects.size_eq] at hn
    refine absurd (fun i hi hle => ?_) (hgone n hn)
    obtain ⟨a, ha, hai⟩ := hcov i hi hle
    exact ⟨a, h.reflects.mem_accepted ha, hai⟩

/-! ## Lifetimes -/

variable {σ : Type} {t : Transport σ} {key : Key} {w : World σ}

/-- What has not been accepted in a lifetime has not been accepted in a part of it. -/
lemma not_covers_front {front back : List Call} {k : ℕ}
    (h : ¬ Covers (c.history t key w (front ++ back)) k) :
    ¬ Covers (c.history t key w front) k := by
  rw [history_append] at h
  exact fun hcov => h (hcov.append _)

/-- The group that a message meets waits, given that stored groups do. -/
private lemma waiting_groupOf_of {front : List Call} {call : Call}
    (hl : c.Lifetime t key w (front ++ [call]))
    (ih : ∀ g, groupIn (c.after t w front) key = some g →
      c.Waiting g (c.history t key w front)) (now : Instant) :
    c.Waiting ((c.after t w front).holdings.store.groupOf key now) (c.history t key w front) := by
  refine Store.groupOf_induction ih fun habsent => ?_
  obtain rfl := hl.eq_nil_of_absent habsent
  exact ⟨follows_new key now, fun _ => rfl, fun n hn => by simp [history, collect] at hn⟩

/-- Where groups are resequenced run by run, every stored group waits, as long as some position has
not been taken in its lifetime.

**Proof sketch.** Induction on the calls of the lifetime, the last one first. -/
theorem waiting_of_lifetime (hp : c.processor = .resequence ⟨true⟩)
    (hv : w.holdings.store.Valid) {calls : List Call} (hl : c.Lifetime t key w calls)
    (hfree : ¬ Covers (c.history t key w calls) last.toNat)
    (hg : groupIn (c.after t w calls) key = some g) : c.Waiting g (c.history t key w calls) := by
  induction calls using List.reverseRecOn generalizing g with
  | nil =>
    rw [after_nil, hl.absent] at hg
    simp at hg
  | append_singleton front call ih =>
    have ih' : ∀ g, groupIn (c.after t w front) key = some g →
        c.Waiting g (c.history t key w front) := fun g hg => ih hl.front (not_covers_front hfree) hg
    rw [after_concat] at hg
    rw [history_concat] at hfree ⊢
    cases c.turn t key (c.valid_after t hv front) call with
    | idle same acc =>
      rw [acc, List.append_nil]
      exact ih' g (same.symm.trans hg)
    | closed _ gone => rw [gone] at hg; simp at hg
    | joined m now handed isFor wellFormed welcome next acc =>
      rw [acc] at hfree ⊢
      have hmet := waiting_groupOf_of hl ih' now
      exact waiting_receive hp
        (hmet.follows.join (Group.welcomes_of_objection?_eq_none welcome) wellFormed)
        hmet.unmoved hfree (next.symm.trans hg)

/-- How a lifetime drains its group. -/
structure Drains (c : Collector) (t : Transport σ) (key : Key) (w : World σ) (calls : List Call) :
    Prop where
  /-- Whatever message joins the group, every step of the run that is due then counts up. -/
  counts_up : ∀ front m now, calls = front ++ [.handle m now] →
    c.accepted key (c.after t w front) (.handle m now) = [m] →
      (((c.after t w front).holdings.store.groupOf key now).join m).StepsCountUp
  /-- A message that joins the group and makes it ready, once the whole sequence has been accepted,
  drains and removes it. -/
  drained : ∀ front m now n, calls = front ++ [.handle m now] →
    c.accepted key (c.after t w front) (.handle m now) = [m] →
      told (c.history t key w calls) = some n → Covers (c.history t key w calls) n.toNat →
        c.releaseRule.isReady (((c.after t w front).holdings.store.groupOf key now).join m) = true →
          (((c.after t w front).holdings.store.groupOf key now).join m).releaseRun.2.isDrained =
              true ∧ groupIn (c.after t w calls) key = none
  /-- Once the whole sequence has been accepted the group is gone, unless it is not ready, by a rule
  that waits for a count or is not one of those provided. -/
  waits : ∀ g n, groupIn (c.after t w calls) key = some g →
    told (c.history t key w calls) = some n → Covers (c.history t key w calls) n.toNat →
      (c.releaseRule.isProvided = true → ∃ threshold, c.releaseRule = .count threshold) ∧
        c.releaseRule.isReady g = false

/-- **The barrier counts up, and groups are drained**, at every moment of every lifetime of a
collector that resequences run by run, whatever its rules and settings are, as long as not every
position there is has been accepted in the lifetime. -/
theorem drains_of_lifetime (c : Collector) (hruns : c.processor = .resequence ⟨true⟩) {σ : Type}
    (t : Transport σ) (channels : σ) (before life : List Call) (key : Key)
    (hl : c.Lifetime t key (c.after t (c.start channels) before) life)
    (hfree : ¬ Covers (c.history t key (c.after t (c.start channels) before) life) last.toNat) :
    c.Drains t key (c.after t (c.start channels) before) life := by
  have hv := c.valid_after_start t channels before
  generalize c.after t (c.start channels) before = w at *
  constructor
  · rintro front m now rfl hacc
    have hstems := (stemsFrom_groupOf hv hl now).join m
    rw [history_concat, hacc] at hfree
    exact hstems.stepsCountUp hfree
  · rintro front m now n rfl hacc hn hcov hready
    have hv' := c.valid_after t hv front
    obtain ⟨isFor, wellFormed, welcome, next, -⟩ := c.joins_of_accepted t key hv' hacc
    have hmet := waiting_groupOf_of hl
      (fun g hg => waiting_of_lifetime hruns hv hl.front (not_covers_front hfree) hg) now
    rw [history_concat, hacc] at hfree hn hcov
    have hjoin := hmet.follows.join (Group.welcomes_of_objection?_eq_none welcome) wellFormed
    obtain ⟨hdrained, hgone⟩ := hjoin.drained hruns hfree hn hcov
    refine ⟨hdrained, ?_⟩
    rw [after_concat, next, receive, if_pos hready, hgone]
  · intro g n hg hn hcov
    have hwait := waiting_of_lifetime hruns hv hl hfree hg
    exact ⟨fun hrule => hwait.exists_count hrule hn hcov, hwait.not_ready n hn hcov⟩

/-- A group is drained by the message that fills its last gap, behind a sequence of one message
under the same key. -/
theorem drains_of_lifetime_filling :
    let m := fun payload number size => Message.build (.bare payload)
      [.correlationId "a", .sequence number size]
    let c := resequencing (.resequencing true) (.correlation .refuse) none true
    let w := c.after .recording (c.start []) [.handle (m "only" 1 1) ⟨5⟩]
    let life : List Call := [.handle (m "three" 3 3) ⟨6⟩, .handle (m "one" 1 3) ⟨7⟩,
      .handle (m "two" 2 3) ⟨8⟩]
    c.history .recording "a" w life = [m "three" 3 3, m "one" 1 3, m "two" 2 3] ∧
      groupIn (c.after .recording w life) "a" = none ∧ c.Drains .recording "a" w life := by
  intro m c w life
  have hl : c.Lifetime .recording "a" w life :=
    ((((lifetime_nil (by decide)).concat (by simp) (.handle (m "three" 3 3) ⟨6⟩)).concat
      (fun _ => by decide) (.handle (m "one" 1 3) ⟨7⟩)).concat
      (fun _ => by decide) (.handle (m "two" 2 3) ⟨8⟩))
  have hhist : c.history .recording "a" w life = [m "three" 3 3, m "one" 1 3, m "two" 2 3] := by
    decide
  refine ⟨hhist, by decide, drains_of_lifetime c rfl .recording []
    [.handle (m "only" 1 1) ⟨5⟩] life "a" hl (not_covers_last ?_)⟩
  show ∀ x ∈ c.history .recording "a" w life, x.number ≠ some last
  rw [hhist]
  decide

/-! ## The longest sequence -/

section LongestSequence

/-- A part of the longest sequence there is. -/
private def longPart (i : SequenceNumber) : Message :=
  .build (.bare "x") [.correlationId "a", .sequence i last]

/-- The group of the longest sequence when everything before a position has been released. -/
private def longGroup (i : SequenceNumber) : Group :=
  ⟨"a", [], some last, ⟨i⟩, i.toNat - 1, ⟨0⟩, false⟩

/-- The calls that hand in the first `k` parts of the longest sequence in order. -/
private def longCalls (k : ℕ) : List Call :=
  (List.range' 1 k).map fun i => .handle (longPart (UInt32.ofNat i)) ⟨0⟩

/-- A collector that resequences run by run. -/
private def longRunner : Collector :=
  resequencing (.resequencing true) (.correlation .refuse) none true

/-- The next part of the longest sequence is accepted. -/
private lemma accepted_longPart {w : World (List Send)} {i : SequenceNumber}
    (hv : w.holdings.store.Valid) (hcap : w.holdings.store.capacity = none) (hi : i ≠ 0)
    (hg : groupIn w "a" = some (longGroup i)) :
    longRunner.accepted "a" w (.handle (longPart i) ⟨0⟩) = [longPart i] := by
  have hle : i ≤ last := UInt32.le_iff_toNat_le.2 (le_last i)
  have hwf : (longPart i).isWellFormed = true := by
    rw [Message.isWellFormed_iff]
    refine ⟨fun n hn => ?_, fun s hs => ?_, fun s hs => ⟨i, rfl, ?_⟩⟩
    · obtain rfl : i = n := Option.some.inj hn
      exact hi
    · obtain rfl : last = s := Option.some.inj hs
      decide
    · obtain rfl : last = s := Option.some.inj hs
      exact hle
  have hobj : (longGroup i).objection? (longPart i) longRunner.settings.strictSize = none := by
    rw [Group.objection?_eq_none_iff]
    refine ⟨rfl, rfl, decide_eq_false (UInt32.not_lt.2 hle), ?_⟩
    show ((decide (i < i) || false) || false) = false
    simp
  have hkey : (longRunner.keyRule.resolve w.holdings.issued (longPart i)).1 = some "a" := rfl
  have hverdict := (longRunner.verdict_handle_of_unlimited hv hcap hkey hwf ⟨0⟩).2
    (by rwa [Store.groupOf_of_get? hg])
  exact if_pos ⟨rfl, hverdict⟩

/-- A part of the longest sequence that is not the last is released when it joins. -/
private lemma receive_longPart {i : SequenceNumber} (hi : i ≠ 0) (hne : i ≠ last) :
    (longRunner.receive (longGroup i) (longPart i)).1 = some (longGroup (i + 1)) := by
  have hpast : ∀ n : SequenceNumber, (⟨n⟩ : Barrier).isPast (some last) = false :=
    fun n => decide_eq_false (UInt32.not_lt.2 (UInt32.le_iff_toNat_le.2 (le_last n)))
  have hnumber : (longPart i).number = some i := rfl
  have hrun : ((longGroup i).join (longPart i)).releaseRun =
      ([longPart i], { longGroup (i + 1) with received := i.toNat - 1 + 1 }) := by
    show Group.releaseRun ⟨"a", [longPart i], some last, ⟨i⟩, i.toNat - 1 + 1, ⟨0⟩, false⟩ = _
    simp [Group.releaseRun, Group.run, Group.extract, hpast, hnumber, Barrier.step, longGroup]
  have hready : longRunner.releaseRule.isReady ((longGroup i).join (longPart i)) = true :=
    (Group.holds_iff _ i).2 ⟨longPart i, List.mem_cons_self, hnumber⟩
  have hreceived : i.toNat - 1 + 1 = (i + 1).toNat - 1 := by
    rw [toNat_succ hne]
    have := toNat_pos hi
    omega
  have hundrained : { longGroup (i + 1) with received := i.toNat - 1 + 1 }.isDrained = false :=
    hpast (i + 1)
  rw [receive, if_pos hready, settle_of_runs (r := ⟨true⟩) rfl rfl, hrun, hundrained,
    if_neg (by simp), hreceived]
  rfl

/-- The barrier moves on by one with every part of the longest sequence. -/
private lemma groupIn_longCalls {k : ℕ} (hpos : 0 < k) (hk : k < last.toNat) :
    groupIn (longRunner.after .recording (longRunner.start []) (longCalls k)) "a" =
      some (longGroup (UInt32.ofNat (k + 1))) := by
  induction k, hpos using Nat.le_induction with
  | base => decide
  | succ k hpos ih =>
    have hi : (UInt32.ofNat (k + 1)).toNat = k + 1 := toNat_ofNat (by have := last.toNat_lt; omega)
    have hne : UInt32.ofNat (k + 1) ≠ last := fun e => by rw [e] at hi; omega
    have hcalls : longCalls (k + 1) =
        longCalls k ++ [.handle (longPart (UInt32.ofNat (k + 1))) ⟨0⟩] := by
      rw [longCalls, List.range'_concat, List.map_append, Nat.one_mul, Nat.add_comm 1 k]
      rfl
    have hg := ih (by omega)
    have hv := longRunner.valid_after_start .recording [] (longCalls k)
    have hacc := accepted_longPart hv (longRunner.capacity_after_start .recording [] _)
      (ne_zero (by omega)) hg
    rw [hcalls, after_concat, (longRunner.joins_of_accepted .recording "a" hv hacc).next,
      Store.groupOf_of_get? hg, receive_longPart (ne_zero (by omega)) hne]
    exact congrArg (some ∘ longGroup) (UInt32.ofNat_add (k + 1) 1).symm

/-- The barrier does not always count up: by a release of the last part of the longest sequence it
goes back to the front. And groups are not always drained when their whole sequence has been
accepted: the count rule may have released some of it before, and wait for more. -/
theorem not_forall_counts_up_and_drained :
    (¬ ∀ (c : Collector), c.Resequences ⟨true⟩ →
      ∀ (key : Key) (calls : List Call) (m : Message) (now : Instant),
        c.accepted key (c.after .recording (c.start []) calls) (.handle m now) = [m] →
          let g := ((c.after .recording (c.start []) calls).holdings.store.groupOf key now).join m
          c.releaseRule.isReady g = true → g.StepsCountUp) ∧
    ¬ ∀ (c : Collector), c.processor = .resequence ⟨true⟩ → ∀ (key : Key) (life : List Call)
      (n : SequenceNumber), c.Lifetime .recording key (c.start []) life →
        told (c.history .recording key (c.start []) life) = some n →
          Covers (c.history .recording key (c.start []) life) n.toNat →
            groupIn (c.after .recording (c.start []) life) key = none := by
  constructor
  · intro hall
    obtain ⟨k, hpos, hk⟩ : ∃ k, 0 < k ∧ k + 1 = last.toNat := ⟨4294967294, by decide, by decide⟩
    have hg := groupIn_longCalls hpos (by omega)
    have hlast : UInt32.ofNat (k + 1) = last := by rw [hk, UInt32.ofNat_toNat]
    rw [hlast] at hg
    have hacc := accepted_longPart (longRunner.valid_after_start .recording [] (longCalls k))
      (longRunner.capacity_after_start .recording [] _) (by decide) hg
    have hup := hall longRunner (resequences_resequencing _ _ _) "a" (longCalls k) _ _ hacc
    rw [Store.groupOf_of_get? hg] at hup
    exact absurd (hup (by decide)) (by decide)
  · intro hall
    let m := fun payload number => Message.build (.bare payload)
      [.correlationId "a", .sequence number 3]
    let rule : ReleaseRule := .count (.ofNat 2)
    let c := resequencing (.resequencing true) (.correlation .refuse) (some rule) true
    let life : List Call := [.handle (m "one" 1) ⟨5⟩, .handle (m "two" 2) ⟨6⟩,
      .handle (m "three" 3) ⟨7⟩]
    have hl : c.Lifetime .recording "a" (c.start []) life :=
      ((((lifetime_nil (by decide)).concat (by simp) (.handle (m "one" 1) ⟨5⟩)).concat
        (fun _ => by decide) (.handle (m "two" 2) ⟨6⟩)).concat
        (fun _ => by decide) (.handle (m "three" 3) ⟨7⟩))
    have hhist : c.history .recording "a" (c.start []) life =
        [m "one" 1, m "two" 2, m "three" 3] := by decide
    have hcov : Covers (c.history .recording "a" (c.start []) life) (3 : SequenceNumber).toNat := by
      rw [hhist, ← gaps_eq_nil_iff (by decide)]
      decide
    exact absurd (hall c rfl "a" life 3 hl (by rw [hhist]; rfl) hcov) (by decide)

end LongestSequence

end Collector

end Regroup
