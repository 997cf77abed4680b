import Regroup.Message.Edit
import Regroup.Proofs.Resequencing.Progress

/-!
# No ready group is left waiting

Whether a group is ready is looked at only when a message joins it. That is enough: whatever else
happens to a group, it is not ready as long as it is stored. The marks that released groups leave
hold nothing, and a run that is released stops where the next position is missing.

## Main definitions

* `Regroup.Collector.AllWait` — that no stored group is ready.

## Main results

* `Regroup.ReleaseRule.isReady_of_messages_eq_nil` — a group that holds nothing is not ready.
* `Regroup.Collector.isReady_of_receive` — what a group leaves behind is not ready, where groups are
  released whole.
* `Regroup.Collector.allWait_of_calls` — no ready group is left waiting.
-/

namespace Regroup

open SequenceNumber

/-- A group that holds nothing is not ready by any of the rules provided, unless its sequence has no
positions. -/
lemma ReleaseRule.isReady_of_messages_eq_nil {rule : ReleaseRule} (hrule : rule.isProvided = true)
    {g : Group} (hnil : g.messages = []) (hpos : ∀ s, g.size = some s → 0 < s.toNat) :
    rule.isReady g = false := by
  have hlength : g.length = 0 := by rw [Group.length, hnil, List.length_nil]
  have hholds : ∀ n, g.holds n = false := by simp [Group.holds, hnil]
  have hwhole : g.hasWholeSequence = false := by
    unfold Group.hasWholeSequence
    cases hs : g.size with
    | none => rfl
    | some s => simp [hlength, (hpos s hs).ne']
  cases rule with
  | custom isReady => simp [isProvided] at hrule
  | always => simp [isReady, Group.isEmpty, hnil]
  | wholeSequence => exact hwhole
  | resequencing r => simp [isReady, hholds, hwhole]
  | count threshold =>
    have hthreshold := threshold.pos
    cases hs : g.size with
    | none => simp [isReady, hs, hlength]; omega
    | some s =>
      have := hpos s hs
      simp [isReady, hs, hlength]; omega

namespace Collector

variable {c : Collector} {g left : Group} {m : Message}

/-! ## Whole groups -/

/-- Where groups are not released run by run, what a group leaves behind that a message joins is not
ready.

**Proof sketch.** A ready group leaves a mark or nothing. A mark holds nothing, and it is only left
where messages of its sequence are still to be expected. -/
lemma isReady_of_receive (hrule : c.releaseRule.isProvided = true)
    (hp : c.processor.releasesRuns = false) (he : (c.receive g m).1 = some left) :
    c.releaseRule.isReady left = false := by
  unfold receive at he
  cases hready : c.releaseRule.isReady (g.join m) with
  | false =>
    rw [hready, if_neg (by simp)] at he
    obtain rfl : g.join m = left := Option.some.inj he
    exact hready
  | true =>
    rw [hready, if_pos rfl, settle_fst_of_unmoved hp] at he
    split at he
    · rename_i hmark
      obtain ⟨-, s, hs, hlt⟩ := (marks_iff (g.join m)).1 hmark
      obtain rfl : (g.join m).complete = left := Option.some.inj he
      refine ReleaseRule.isReady_of_messages_eq_nil hrule rfl fun s' hs' => ?_
      obtain rfl : s = s' := Option.some.inj (hs.symm.trans hs')
      omega
    · simp at he

variable {σ : Type} {t : Transport σ} {w : World σ}

variable (c) in
/-- No stored group is ready. -/
def AllWait (w : World σ) : Prop :=
  ∀ key g, groupIn w key = some g → c.releaseRule.isReady g = false

/-! ## Every call -/

/-- Where groups are not released run by run, all groups wait behind any calls. -/
lemma allWait_after (hrule : c.releaseRule.isProvided = true)
    (hp : c.processor.releasesRuns = false) (t : Transport σ) (channels : σ) (calls : List Call) :
    c.AllWait (c.after t (c.start channels) calls) :=
  c.stored_induction t
    (fun _ _ => ReleaseRule.isReady_of_messages_eq_nil hrule rfl (by simp [Group.new]))
    (fun _ _ _ _ _ _ he => isReady_of_receive hrule hp he) channels calls

/-- **No ready group is left waiting**, marks included, behind any calls of a collector that
releases groups as a whole by any of the rules provided, or that resequences run by run by its own
rule, whatever its settings are and whatever becomes of the sends, as long as no message stands at
the last position of all.

**Proof sketch.** Where groups are not released run by run, every call keeps all groups waiting
(`allWait_after`). Where they are, a stored group is in a lifetime that began in the calls
(`exists_lifetime`), and wherever that lifetime has got to, nothing is left to be released
(`exists_progress`). -/
theorem allWait_of_calls (c : Collector)
    (hc : (c.releaseRule.isProvided = true ∧ c.processor.releasesRuns = false) ∨
      c.Resequences ⟨true⟩) (t : Transport σ) (channels : σ) (calls : List Call)
    (hlast : ∀ m now, Call.handle m now ∈ calls → m.number ≠ some last) :
    c.AllWait (c.after t (c.start channels) calls) := by
  rcases hc with ⟨hrule, hp⟩ | hc
  · exact allWait_after hrule hp t channels calls
  · intro key g hg
    have habsent : groupIn (c.start channels) key = none := rfl
    obtain ⟨before, life, rfl, hl⟩ := exists_lifetime habsent calls (by rw [hg]; simp)
    obtain ⟨n, hn⟩ := exists_progress hc (c.valid_after_start t channels before) hl
      fun m now hm _ => hlast m now (List.mem_append_right _ hm)
    rw [after_append] at hg
    exact (hn.stored g hg).2.1

/-- A resequencer of runs waits at a gap, and a group that was released for a single message has
left a mark. -/
theorem allWait_of_calls_waiting :
    let m := fun payload number => Message.build (.bare payload)
      [.correlationId "a", .sequence number 3]
    let calls : List Call := [.handle (m "three" 3) ⟨5⟩, .handle (m "one" 1) ⟨6⟩]
    let runs := resequencing (.resequencing true) (.correlation .refuse) none true
    let marking := processing (Settings.default.withDiscardsLate true) (.correlation .refuse)
      .passThrough (some (.count (.ofNat 1))) true
    let waiting := runs.after .recording (runs.start []) calls
    let marked := marking.after .recording (marking.start []) calls
    groupIn waiting "a" = some ⟨"a", [m "three" 3], some 3, ⟨2⟩, 2, ⟨5⟩, false⟩ ∧
      runs.AllWait waiting ∧
      groupIn marked "a" = some ⟨"a", [], some 3, .start, 1, ⟨5⟩, true⟩ ∧
      marking.AllWait marked := by
  intro m calls runs marking waiting marked
  have hlast : ∀ x now, Call.handle x now ∈ calls → x.number ≠ some last := by
    intro x now hx
    simp only [calls, List.mem_cons, Call.handle.injEq, List.not_mem_nil, or_false] at hx
    rcases hx with ⟨rfl, -⟩ | ⟨rfl, -⟩ <;> decide
  exact ⟨by decide,
    allWait_of_calls runs (.inr (resequences_resequencing _ _ _)) .recording [] calls hlast,
    by decide, allWait_of_calls marking (.inl ⟨rfl, rfl⟩) .recording [] calls hlast⟩

end Collector

end Regroup
