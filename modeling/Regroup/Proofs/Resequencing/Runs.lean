import Mathlib.Order.Bounds.Defs
import Regroup.Message.Edit
import Regroup.Proofs.Resequencing.Progress

/-!
# Releasing run by run

A resequencer that releases runs sends each message as soon as every position before it has been
sent. At every moment of a lifetime what it has sent is determined by what has been accepted and
not evicted since the lifetime began.

## Main definitions

* `Regroup.Collector.SentRuns` — what has been sent in a lifetime.

## Main results

* `Regroup.Collector.sentRuns_of_lifetime` — in every lifetime all runs that are due have been
  sent.
-/

namespace Regroup.Collector

open SequenceNumber

variable {c : Collector} {σ : Type} {t : Transport σ} {key : Key} {w : World σ} {calls : List Call}
  {m : ℕ}

/-- In a lifetime everything up to position `m` has been sent, and nothing else. -/
structure SentRuns (c : Collector) (t : Transport σ) (key : Key) (w : World σ) (calls : List Call)
    (m : ℕ) : Prop where
  /-- No position has been accepted twice. -/
  distinct : Distinct (c.history t key w calls)
  /-- All positions up to `m` have been accepted and not evicted, and `m` is the greatest such. -/
  greatest : IsGreatest {k | Covers (c.kept t key w calls) k} m
  /-- The output path has been sent the messages at these positions, in order and each once. -/
  outputs_eq : c.outputs t key w calls = (firsts (c.kept t key w calls) m).map Send.release
  /-- The channels have taken them and are where all that has been sent leads. -/
  hasSent : c.HasSent t w calls (c.outputs t key w calls)
  /-- Their positions are one, two, and so on up to `m`. -/
  numbers_eq : (firsts (c.kept t key w calls) m).map (·.number) =
    (List.range' 1 m).map fun i => some (UInt32.ofNat i)
  /-- While the group is stored it knows the length that has been told, and its barrier stands
  behind `m`. -/
  stored : ∀ g, groupIn (c.after t w calls) key = some g →
    g.size = told (c.history t key w calls) ∧ g.barrier.next.toNat = m + 1
  /-- No length that has been told is exceeded. -/
  inside : ∀ a ∈ c.history t key w calls, ∀ s, a.size = some s → m ≤ s.toNat
  /-- Handing in a message leaves no group exactly where none was opened or `m` has reached the
  length that has been told. -/
  removed : ∀ front x now, calls = front ++ [.handle x now] →
    (groupIn (c.after t w calls) key = none ↔ c.history t key w calls = [] ∨
      ∃ s, told (c.history t key w calls) = some s ∧ s.toNat = m)

/-- What has not been evicted is the same up to the position that a lifetime has got to. -/
private lemma firstAt_kept (hkept : c.kept t key w calls =
      (c.history t key w calls).filter (Group.isInside (told (c.history t key w calls))))
    (h : c.Progress t key w calls m) {n : SequenceNumber} (hn : n.toNat ≤ m) :
    firstAt (c.kept t key w calls) n = firstAt (c.history t key w calls) n := by
  rw [hkept]
  apply firstAt_filter
  intro a _ han
  rw [Group.isInside_iff]
  intro s hs n' hn'
  obtain rfl : n = n' := Option.some.inj (han.symm.trans hn')
  have := h.le_told s hs
  omega

/-- All positions up to the one that a lifetime of runs has got to have been accepted and not
evicted, and it is the greatest such.

**Proof sketch.** The next position cannot be covered: where runs are released no message of the
sequence has been accepted there, and what lies beyond the end has been evicted. -/
private lemma isGreatest_covers (hkept : c.kept t key w calls =
      (c.history t key w calls).filter (Group.isInside (told (c.history t key w calls))))
    (h : c.Progress t key w calls m) (hp : c.processor.releasesRuns = true)
    (hlast : ∀ a ∈ c.history t key w calls, a.number ≠ some last) :
    IsGreatest {k | Covers (c.kept t key w calls) k} m := by
  constructor
  · intro n hn hle
    obtain ⟨a, ha⟩ := exists_firstAt (h.covers n hn hle)
    rw [← firstAt_kept hkept h hle] at ha
    exact ⟨a, firstAt_eq_some ha⟩
  · intro k hk
    by_contra hlt
    have hmk : m + 1 ≤ k := by omega
    rcases Nat.lt_or_ge (m + 1) (2 ^ 32) with hm | hm
    · have h0 : (UInt32.ofNat (m + 1)).toNat = m + 1 := toNat_ofNat hm
      obtain ⟨a, ha, han⟩ := hk (UInt32.ofNat (m + 1)) (fun e => by simp [e] at h0) (by omega)
      rw [hkept, List.mem_filter] at ha
      exact h.stopped hp a ha.1 ha.2 _ han h0
    · obtain ⟨a, ha, han⟩ := h.covers last (by decide) (by have := last.toNat_lt; omega)
      exact hlast a ha han

/-- **A resequencer of runs has sent what was due**, at every moment of every lifetime, if no
message of the lifetime stands at the last position of all and no send of it has failed.

**Proof sketch.** The lifetime has got to some position (`exists_progress`). What has been evicted
lies beyond the end of the sequence (`kept_eq`), so leaving it out changes nothing up to there.
Without failed sends what was planned has been sent (`outputs_eq_releases`). -/
theorem sentRuns_of_lifetime (settings : Settings) (hruns : settings.releasesRuns = true)
    (keyRule : KeyRule) (discards : Bool) (hc : c = resequencing settings keyRule none discards)
    (t : Transport σ) (channels : σ) (before life : List Call) (key : Key)
    (hl : c.Lifetime t key (c.after t (c.start channels) before) life)
    (hlast : ∀ m now, Call.handle m now ∈ life → m.number ≠ some last)
    (hsent : c.Delivers t (c.after t (c.start channels) before) life) :
    ∃ m, c.SentRuns t key (c.after t (c.start channels) before) life m := by
  have hv := c.valid_after_start t channels before
  have hreseq : c.Resequences ⟨settings.releasesRuns⟩ :=
    hc ▸ resequences_resequencing settings keyRule discards
  have hp : c.processor.releasesRuns = true := hreseq.releasesRuns_eq.trans hruns
  have hprov : c.processor.isProvided = true := by
    rw [hreseq.processor_eq]
    rfl
  have hfit : ∀ m now, Call.handle m now ∈ life → c.Fits m := fun m now hm _ => hlast m now hm
  generalize c.after t (c.start channels) before = w at *
  obtain ⟨m, hm⟩ := exists_progress hreseq hv hl hfit
  have hkept := kept_eq hprov hv hl hfit
  have hfirsts : firsts (c.kept t key w life) m = firsts (c.history t key w life) m := by
    apply firstsFrom_congr
    intro i _ hi
    have := hm.lt
    exact firstAt_kept hkept hm (by rw [toNat_ofNat (by omega)]; omega)
  obtain ⟨g, hg⟩ := exists_follows hprov hv hl hfit
  refine ⟨m, ?_⟩
  constructor
  · exact hg.reflects.distinct
  · refine isGreatest_covers hkept hm hp fun a ha => ?_
    obtain ⟨⟨now, hmem⟩, -⟩ := c.mem_history t key ha
    exact hlast a now hmem
  · rw [outputs_eq_releases c t key hv hsent, hm.releases_eq, hfirsts]
  · exact c.hasSent_outputs t key w life
  · rw [hfirsts]
    exact map_number_firsts hm.covers hm.lt
  · intro g' hg'
    obtain ⟨hf, -, hnext, -⟩ := hm.stored g' hg'
    exact ⟨hf.reflects.size_eq, hnext⟩
  · intro a ha s hs
    apply hm.le_told
    rw [← hg.reflects.size_eq]
    exact hg.reflects.agreed a ha s hs
  · rintro front x now rfl
    exact hm.groupIn_eq_none_iff

/-- A resequencer of runs releases a sequence whose length becomes known late, behind a sequence of
one message under the same key. -/
theorem sentRuns_of_lifetime_evicting :
    let m := fun payload number size => Message.build (.bare payload)
      (.correlationId "a" :: .sequenceNumber number :: size)
    let c := resequencing (.resequencing true) (.correlation .refuse) none true
    let w := c.after .recording (c.start []) [.handle (m "only" 1 [.sequenceSize 1]) ⟨5⟩]
    let life : List Call := [.handle (m "two" 2 []) ⟨6⟩, .handle (m "five" 5 []) ⟨7⟩,
      .handle (m "one" 1 []) ⟨8⟩, .handle (m "two again" 2 []) ⟨9⟩,
      .handle (m "three" 3 [.sequenceSize 3]) ⟨10⟩]
    c.outputs .recording "a" w life =
        [m "one" 1 [], m "two" 2 [], m "three" 3 [.sequenceSize 3]].map Send.release ∧
      ∃ k, c.SentRuns .recording "a" w life k := by
  intro m c w life
  have hl : c.Lifetime .recording "a" w life :=
    ((((((lifetime_nil (by decide)).concat (by simp) (.handle (m "two" 2 []) ⟨6⟩)).concat
      (fun _ => by decide) (.handle (m "five" 5 []) ⟨7⟩)).concat
      (fun _ => by decide) (.handle (m "one" 1 []) ⟨8⟩)).concat
      (fun _ => by decide) (.handle (m "two again" 2 []) ⟨9⟩)).concat
      (fun _ => by decide) (.handle (m "three" 3 [.sequenceSize 3]) ⟨10⟩))
  refine ⟨by decide, sentRuns_of_lifetime (.resequencing true) rfl (.correlation .refuse) true rfl
    .recording [] [.handle (m "only" 1 [.sequenceSize 1]) ⟨5⟩] life "a" hl ?_
    (c.delivers_of_takes _ Transport.takes_recording _ _)⟩
  intro x now hx
  simp only [life, List.mem_cons, Call.handle.injEq, List.not_mem_nil, or_false] at hx
  rcases hx with ⟨rfl, -⟩ | ⟨rfl, -⟩ | ⟨rfl, -⟩ | ⟨rfl, -⟩ | ⟨rfl, -⟩ <;> decide

end Regroup.Collector
