import Regroup.Message.Edit
import Regroup.Proofs.Resequencing.Progress

/-!
# Releasing whole sequences

A resequencer that does not release runs sends all of a sequence or nothing. The call that accepts
the last missing message sends the whole sequence and removes the group; no other call sends
anything to the output path for it.

## Main definitions

* `Regroup.CompletesSequence` — that a message is the last one that is missing from a sequence.
* `Regroup.Collector.IsWhole` — that a plan sends a whole sequence.
* `Regroup.Collector.SentWhole` — what handing in a message sends at a moment of a lifetime.

## Main results

* `Regroup.Collector.sentWhole_of_handle` — whole sequences are sent or nothing is.
-/

namespace Regroup

/-- Behind the messages `before` the message is the last one that is missing from a sequence of
length `n`. -/
structure CompletesSequence (before : List Message) (m : Message) (n : SequenceNumber) : Prop where
  /-- The length has been told, by the message itself at the latest. -/
  told_eq : told (before ++ [m]) = some n
  /-- The message stands at a position of the sequence that has been missing. -/
  missing : ∃ i, m.number = some i ∧ i ≤ n ∧ ∀ a ∈ before, a.number ≠ some i
  /-- No other position has. -/
  others : ∀ i, i ≠ 0 → i ≤ n → m.number ≠ some i → ∃ a ∈ before, a.number = some i

/-- Behind the message that was the last one missing no position is missing any more. -/
lemma CompletesSequence.covers {before : List Message} {m : Message} {n : SequenceNumber}
    (h : CompletesSequence before m n) : Covers (before ++ [m]) n.toNat := by
  intro i hi hle
  by_cases hm : m.number = some i
  · exact ⟨m, by simp, hm⟩
  · obtain ⟨a, ha, hai⟩ := h.others i hi (UInt32.le_iff_toNat_le.2 hle) hm
    exact ⟨a, List.mem_append_left _ ha, hai⟩

namespace Collector

open SequenceNumber

variable {c : Collector} {g : Group} {accepted : List Message} {m : Message} {n : SequenceNumber}

/-- The plan sends the whole sequence of length `n` that has been accepted, and discards what else
the group has kept. -/
structure IsWhole (c : Collector) (accepted kept : List Message) (n : SequenceNumber)
    (plan : List Send) : Prop where
  /-- The sequence is sent to the output path, the rest to the channel for discarded messages. -/
  plan_eq : plan = (firsts accepted n.toNat).map Send.release ++
    c.discardPlan (kept.filter (· ∉ firsts accepted n.toNat))
  /-- The positions of the sequence are one, two, and so on up to `n`. -/
  numbers_eq : (firsts accepted n.toNat).map (·.number) =
    (List.range' 1 n.toNat).map fun i => some (UInt32.ofNat i)
  /-- The rest has no positions. -/
  rest : ∀ a ∈ kept, a ∉ firsts accepted n.toNat → a.number = none

/-- A message whose arrival completes what has been accepted is the last one that was missing, if
it is well-formed and stands at a free position inside the sequence, and the sequence was not
complete without it. -/
private lemma completesSequence_of_covers {before : List Message} (hwf : m.isWellFormed = true)
    (hin : Group.isInside (told (before ++ [m])) m = true)
    (hfree : ∀ i, m.number = some i → ∀ a ∈ before, a.number ≠ some i)
    (hbefore : told before = some n → ¬ Covers before n.toNat)
    (hn : told (before ++ [m]) = some n) (hcov : Covers (before ++ [m]) n.toNat) :
    CompletesSequence before m n := by
  have hothers : ∀ i, i ≠ 0 → i ≤ n → m.number ≠ some i → ∃ a ∈ before, a.number = some i := by
    intro i hi hle hne
    obtain ⟨a, ha, hai⟩ := hcov i hi (UInt32.le_iff_toNat_le.1 hle)
    rcases List.mem_append.1 ha with ha | ha
    · exact ⟨a, ha, hai⟩
    · rw [List.mem_singleton] at ha
      subst ha
      exact absurd hai hne
  cases hm : m.number with
  | some i =>
    refine ⟨hn, ⟨i, hm, ?_, hfree i hm⟩, hothers⟩
    exact UInt32.le_iff_toNat_le.2 ((Group.isInside_iff _ _).1 hin n hn i hm)
  | none =>
    -- a message without a position tells no length, so nothing was missing before it
    have hsize : m.size = none := by
      cases hs : m.size with
      | none => rfl
      | some s =>
        obtain ⟨i, hi, -⟩ := ((m.isWellFormed_iff).1 hwf).2.2 s hs
        rw [hm] at hi
        simp at hi
    rw [told_concat, hsize, Option.or_none] at hn
    refine absurd (fun i hi hle => ?_) (hbefore hn)
    exact hothers i hi (UInt32.le_iff_toNat_le.2 hle) (by rw [hm]; simp)

/-! ## Along a lifetime -/

variable {σ : Type} {t : Transport σ} {key : Key} {w : World σ} {front : List Call} {now : Instant}

/-- What handing in a message behind the calls `front` of a lifetime sends. -/
structure SentWhole (c : Collector) (t : Transport σ) (key : Key) (w : World σ)
    (front : List Call) (m : Message) (now : Instant) : Prop where
  /-- Something is to be sent to the output path exactly if the message is accepted and is the last
  one that is missing from its sequence. -/
  released_iff : (c.handle (c.after t w front).holdings now m).1.plan.filter (·.isOutput) ≠ [] ↔
    (c.handle (c.after t w front).holdings now m).1.verdict = .accepted ∧
      ∃ n, CompletesSequence (c.history t key w front) m n
  /-- Then the whole sequence is to be sent, and the group is gone. -/
  whole : ∀ n, (c.handle (c.after t w front).holdings now m).1.verdict = .accepted →
    CompletesSequence (c.history t key w front) m n →
      c.IsWhole (c.history t key w (front ++ [.handle m now]))
        (c.kept t key w (front ++ [.handle m now])) n
        (c.handle (c.after t w front).holdings now m).1.plan ∧
      groupIn (c.after t w (front ++ [.handle m now])) key = none
  /-- What is sent is what was to be sent, up to the first send that fails. -/
  delivered_prefix : (c.perform t (c.after t w front) (.handle m now)).delivered <+:
    (c.handle (c.after t w front).holdings now m).1.plan
  /-- If no send fails all of it is sent. -/
  delivered_eq :
    (deliver t (c.after t w front).channels
      (c.handle (c.after t w front).holdings now m).1.plan).failure = none →
    (c.perform t (c.after t w front) (.handle m now)).delivered =
      (c.handle (c.after t w front).holdings now m).1.plan

/-- Before a message is handed in nothing is complete. -/
private lemma not_covers_of_lifetime {r : Resequencer} (hc : c.Resequences r)
    (hr : r.releasesRuns = false) (hv : w.holdings.store.Valid)
    (hl : c.Lifetime t key w (front ++ [.handle m now]))
    (hn : told (c.history t key w front) = some n) :
    ¬ Covers (c.history t key w front) n.toNat := by
  intro hcov
  have hp := hc.releasesRuns_eq.trans hr
  obtain ⟨k, hk⟩ := exists_progress hc hv hl.front fun a _ _ => fits_of_whole hp a
  cases hg : groupIn (c.after t w front) key with
  | none =>
    rw [hl.eq_nil_of_absent hg] at hn
    simp [history, collect] at hn
  | some g =>
    obtain ⟨hf, hready, -, -⟩ := hk.stored g hg
    rw [hc.isReady_of_whole hr, hf.hasWholeSequence (hf.unmoved hp) hn hcov] at hready
    simp at hready

/-- A plan that discards the messages without a position behind a complete sequence sends the whole
sequence. -/
private lemma isWhole_of_covers (hf : c.Follows g accepted)
    (hn : told accepted = some n) (hcov : Covers accepted n.toNat) :
    c.IsWhole accepted (accepted.filter (Group.isInside (told accepted))) n
      ((firsts accepted n.toNat).map Send.release ++
        c.discardPlan (accepted.filter (!·.isNumbered))) := by
  have hrest : ∀ a ∈ accepted, (Group.isInside (told accepted) a = true ∧
      a ∉ firsts accepted n.toNat ↔ a.isNumbered = false) := by
    intro a ha
    cases han : a.number with
    | none =>
      have hnot : a ∉ firsts accepted n.toNat := by
        intro hmem
        obtain ⟨i, -, -, hi⟩ := mem_firstsFrom.1 hmem
        rw [(firstAt_eq_some hi).2] at han
        simp at han
      simp [Message.isNumbered, han, hnot, Group.isInside_iff]
    | some i =>
      have hpos := toNat_pos (((a.isWellFormed_iff).1 (hf.reflects.wellFormed a ha)).1 i han)
      have hmem : Group.isInside (told accepted) a = true → a ∈ firsts accepted n.toNat := by
        intro hin
        have := (Group.isInside_iff _ _).1 hin n hn i han
        exact hf.reflects.distinct.mem_firstsFrom ha han hpos (by omega)
      simp only [Message.isNumbered, han, Option.isSome_some, Bool.true_eq_false, iff_false,
        not_and, not_not]
      exact hmem
  have hfilter : (accepted.filter (Group.isInside (told accepted))).filter
      (· ∉ firsts accepted n.toNat) = accepted.filter (!·.isNumbered) := by
    rw [List.filter_filter]
    apply List.filter_congr
    intro a ha
    have := hrest a ha
    rw [Bool.eq_iff_iff, Bool.and_eq_true, decide_eq_true_eq, Bool.not_eq_true', and_comm]
    exact this
  refine ⟨?_, map_number_firsts hcov n.toNat_lt, fun a ha hnot => ?_⟩
  · rw [hfilter]
  · have hmem : a ∈ accepted.filter (!·.isNumbered) := by
      rw [← hfilter]
      exact List.mem_filter.2 ⟨ha, by simpa using hnot⟩
    simpa [Message.isNumbered] using (List.mem_filter.1 hmem).2

/-- What a message that joins sends.

**Proof sketch.** Nothing has been released before, so a group that is there behind the call has
not advanced, and a group that has come to its end has advanced over the whole sequence. -/
private lemma sent_of_joined {r : Resequencer} (hc : c.Resequences r)
    (hr : r.releasesRuns = false) (hv : w.holdings.store.Valid)
    (hl : c.Lifetime t key w (front ++ [.handle m now]))
    (hwf : m.isWellFormed = true)
    (hwel : ((c.after t w front).holdings.store.groupOf key now).objection? m
      c.settings.strictSize = none) :
    let result := c.receive ((c.after t w front).holdings.store.groupOf key now) m
    let before := c.history t key w front
    (result.2.filter (·.isOutput) ≠ [] ↔ ∃ n, CompletesSequence before m n) ∧
      ∀ n, CompletesSequence before m n →
        c.IsWhole (before ++ [m])
          ((before ++ [m]).filter (Group.isInside (told (before ++ [m])))) n result.2 ∧
        result.1 = none := by
  intro result before
  have hp := hc.releasesRuns_eq.trans hr
  have hwelcome := Group.welcomes_of_objection?_eq_none hwel
  have hold := follows_groupOf (Processor.isProvided_of_whole hp) hv hl
    (fun a _ _ => fits_of_whole hp a) hwel
  have hjoin := hold.join hwelcome hwf
  obtain ⟨k, hk⟩ := receive_advances hc hjoin fun a _ => fits_of_whole hp a
  rw [show (Store.groupOf _ key now).barrier.next.toNat = 1 by rw [hold.unmoved hp]; rfl] at hk
  have hout := hk.filter_isOutput
  cases he : result.1 with
  | some left =>
    obtain ⟨hf, hready, hnext, -⟩ := hk.stays left he
    rw [hc.isReady_of_whole hr] at hready
    have hnot : ∀ n, ¬ CompletesSequence before m n := by
      intro n hn
      rw [hf.hasWholeSequence (hf.unmoved hp) hn.told_eq hn.covers] at hready
      simp at hready
    obtain rfl : k = 0 := by
      rw [hf.unmoved hp] at hnext
      have : (1 : ℕ) = 1 + k := hnext
      omega
    refine ⟨⟨fun h => absurd hout h, fun h => ?_⟩, fun n hn => absurd hn (hnot n)⟩
    obtain ⟨n, hn⟩ := h
    exact absurd hn (hnot n)
  | none =>
    obtain ⟨s, hs, hend, hplan⟩ := hk.ends he
    obtain rfl : k = s.toNat := by omega
    have hcov : Covers (before ++ [m]) s.toNat := by
      have := hk.covers
      rwa [Nat.add_sub_cancel_left] at this
    have hdone : CompletesSequence before m s := by
      refine completesSequence_of_covers hwf ?_ (hold.reflects.vacant hwelcome)
        (fun hn => not_covers_of_lifetime hc hr hv hl hn) hs hcov
      have := Group.Reflects.inside_join hwelcome hwf
      rwa [hold.reflects.size_eq, ← told_concat] at this
    have hne : firsts (before ++ [m]) s.toNat ≠ [] := by
      -- the length has been told by a message at a position of the sequence
      obtain ⟨i, hi, hle, -⟩ := hdone.missing
      have hpos := toNat_pos (((m.isWellFormed_iff).1 hwf).1 i hi)
      rw [UInt32.le_iff_toNat_le] at hle
      exact List.ne_nil_of_mem
        (hjoin.reflects.distinct.mem_firstsFrom (by simp) hi hpos (by omega))
    refine ⟨⟨fun _ => ⟨s, hdone⟩, fun _ => ?_⟩, fun n hn => ⟨?_, rfl⟩⟩
    · rw [hout]
      simpa [firsts] using hne
    · obtain rfl : s = n := Option.some.inj (hs.symm.trans hn.told_eq)
      rw [hplan]
      exact isWhole_of_covers hjoin hs hcov

/-- **A resequencer of whole sequences sends all or nothing**: every call that hands in a message
lies in a lifetime of the group of its key, and in such a lifetime it sends the whole sequence
exactly if it accepts the last missing message, and then the group is gone.

**Proof sketch.** A call that adds nothing sends nothing to the output path. For a message that
joins, see what the group that it has joined sends (`sent_of_joined`). -/
theorem sentWhole_of_handle (settings : Settings) (hwhole : settings.releasesRuns = false)
    (keyRule : KeyRule) (discards : Bool) (hc : c = resequencing settings keyRule none discards)
    (t : Transport σ) (channels : σ) (calls : List Call) (key : Key) (m : Message) (now : Instant)
    (hfor : c.IsFor (c.after t (c.start channels) calls) key m) :
    (∃ before front, calls = before ++ front ∧
      c.Lifetime t key (c.after t (c.start channels) before) (front ++ [.handle m now])) ∧
    ∀ before front, calls = before ++ front →
      c.Lifetime t key (c.after t (c.start channels) before) (front ++ [.handle m now]) →
      c.SentWhole t key (c.after t (c.start channels) before) front m now := by
  refine ⟨exists_lifetime_concat rfl calls _, ?_⟩
  rintro before front rfl hl
  have hreseq : c.Resequences ⟨settings.releasesRuns⟩ :=
    hc ▸ resequences_resequencing settings keyRule discards
  have hp : c.processor.releasesRuns = false := hreseq.releasesRuns_eq.trans hwhole
  have hv := c.valid_after_start t channels before
  rw [after_append] at hfor
  generalize c.after t (c.start channels) before = w at *
  have hprefix := delivered_append_left t (c.after t w front).channels
    (c.handle (c.after t w front).holdings now m).1.plan
  cases c.turn t key (c.valid_after t hv front) (.handle m now) with
  | idle same acc evicted rel =>
    -- the message is not accepted
    have hverdict : (c.handle (c.after t w front).holdings now m).1.verdict ≠ .accepted := by
      intro h
      rw [accepted, if_pos ⟨hfor, h⟩] at acc
      simp at acc
    rw [released, if_pos hfor] at rel
    exact ⟨⟨fun h => absurd rel h, fun h => absurd h.1 hverdict⟩, fun n h => absurd h hverdict,
      ⟨_, hprefix⟩, delivered_eq_of_failure_eq_none t⟩
  | closed early => exact absurd rfl (early m now)
  | joined m' now' handed isFor wellFormed welcome next acc evicted plan verdict =>
    obtain ⟨rfl, rfl⟩ := Call.handle.inj handed
    obtain ⟨hiff, hsent⟩ := sent_of_joined hreseq hwhole hv hl wellFormed welcome
    rw [← plan] at hiff hsent
    refine ⟨⟨fun h => ⟨verdict, hiff.1 h⟩, fun h => hiff.2 h.2⟩, fun n _ hn => ?_, ⟨_, hprefix⟩,
      delivered_eq_of_failure_eq_none t⟩
    obtain ⟨hplan, hgone⟩ := hsent n hn
    rw [kept_eq (Processor.isProvided_of_whole hp) hv hl fun a _ _ => fits_of_whole hp a,
      history_concat, acc, after_concat, next]
    exact ⟨hplan, hgone⟩

/-- A resequencer of whole sequences sends a sequence whose length becomes known with its last
message. -/
theorem sentWhole_of_handle_evicting :
    let m := fun payload headers => Message.build (.bare payload) (.correlationId "a" :: headers)
    let c := resequencing (.resequencing false) (.correlation .refuse) none true
    let calls : List Call := [.handle (m "five" [.sequenceNumber 5]) ⟨5⟩,
      .handle (m "other" []) ⟨6⟩, .handle (m "two" [.sequenceNumber 2]) ⟨7⟩]
    let x := m "one" [.sequenceNumber 1, .sequenceSize 2]
    let w := c.start []
    (c.perform .recording (c.after .recording w calls) (.handle x ⟨8⟩)).delivered =
        [.release x, .release (m "two" [.sequenceNumber 2]), .discard (m "other" [])] ∧
      (∃ before front, calls = before ++ front ∧
        c.Lifetime .recording "a" (c.after .recording w before) (front ++ [.handle x ⟨8⟩])) ∧
      ∀ before front, calls = before ++ front →
        c.Lifetime .recording "a" (c.after .recording w before) (front ++ [.handle x ⟨8⟩]) →
        c.SentWhole .recording "a" (c.after .recording w before) front x ⟨8⟩ := by
  intro m c calls x w
  exact ⟨by decide, sentWhole_of_handle (.resequencing false) rfl (.correlation .refuse) true rfl
    .recording [] calls "a" x ⟨8⟩ (by decide)⟩

end Collector

end Regroup
