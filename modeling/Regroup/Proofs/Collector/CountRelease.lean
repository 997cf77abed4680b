import Regroup.Message.Edit
import Regroup.Proofs.Collector.Lifetime

/-!
# Groups that are released by their count

The count rule is to declare a group ready once it holds so many messages, or its whole sequence.
Whether the sequence is whole is told from the number of messages, which is compared with the length
of the sequence. Messages without a position count too, though they are no part of the sequence. So
below the threshold the rule is right about a group without such messages; but where there are as
many of them as positions are missing it takes the sequence to be whole when it is not, and where
there are any of them and no position is missing it does not see that it is.

## Main definitions

* `Regroup.Group.Placed` — that the buffered messages stand at positions of their own inside the
  sequence.
* `Regroup.Collector.Reached` — that a collector gets to see a group.

## Main results

* `Regroup.Group.Placed.isReady_count_iff` — when the count rule declares a group ready.
* `Regroup.Collector.placed_of_stored` — in every stored group the messages are placed.
* `Regroup.Collector.isReady_iff_of_reached` — when the count rule is right about whole sequences.
-/

namespace Regroup

open SequenceNumber

namespace Group

variable {g g' : Group} {m : Message}

/-! ## Placed messages -/

/-- The buffered messages are placed: those with a position stand at positions of their own, from
one to the length of the sequence, if that is known. -/
structure Placed (g : Group) : Prop where
  ne_zero : ∀ m ∈ g.messages, ∀ n, m.number = some n → n ≠ 0
  distinct : Distinct g.messages
  inside : ∀ m ∈ g.messages, isInside g.size m = true

/-- A group before its first message holds nothing that could be misplaced. -/
lemma placed_new (key : Key) (now : Instant) : (new key now).Placed where
  ne_zero := by simp [new]
  distinct := List.nodup_nil
  inside := by simp [new]

namespace Placed

/-- Messages that stay while others leave are placed where they were. -/
lemma of_sublist (h : g.Placed) (hsub : g'.messages.Sublist g.messages)
    (hsize : g'.size = g.size) : g'.Placed where
  ne_zero m hm := h.ne_zero m (hsub.subset hm)
  distinct := h.distinct.sublist hsub
  inside m hm := by
    rw [hsize]
    exact h.inside m (hsub.subset hm)

/-- What is left when messages are evicted is inside the sequence as it is known then. -/
lemma inside_dropExcess (h : g.Placed) (m : Message) :
    ∀ a ∈ (g.dropExcess m).messages, isInside (g.size.or m.size) a = true := by
  intro a ha
  have hinside := h.inside a ((g.dropExcess_sublist m).subset ha)
  unfold dropExcess at ha
  cases hg : g.size with
  | some s => rwa [hg] at hinside
  | none =>
    cases hs : m.size with
    | none => rfl
    | some s =>
      simp only [hg, hs] at ha
      exact (List.mem_filter.1 ha).2

/-- A message that joins a group without an objection is placed. -/
lemma join (h : g.Placed) (hw : g.Welcomes m) (hwf : m.isWellFormed = true) :
    (g.join m).Placed where
  ne_zero a ha := by
    rw [messages_join, List.mem_append, List.mem_singleton] at ha
    rcases ha with ha | rfl
    · exact h.ne_zero a ((g.dropExcess_sublist m).subset ha)
    · exact ((Message.isWellFormed_iff a).1 hwf).1
  distinct := (h.distinct.sublist (g.dropExcess_sublist m)).concat
    fun n hn a ha => hw.vacant n hn a ((g.dropExcess_sublist m).subset ha)
  inside a ha := by
    rw [messages_join, List.mem_append, List.mem_singleton] at ha
    rw [size_join]
    rcases ha with ha | rfl
    · exact h.inside_dropExcess m a ha
    · exact Reflects.inside_join hw hwf

/-! ## Counting -/

/-- The messages with a position and the gaps are as many as the sequence is long. -/
lemma length_numbered_add_length_gaps (h : g.Placed) {s : SequenceNumber}
    (hs : g.size = some s) :
    (g.messages.filter (·.isNumbered)).length + (gaps g.messages s.toNat).length = s.toNat := by
  rw [length_filter_isNumbered h.distinct s.toNat_lt fun m hm n hn =>
    ⟨h.ne_zero m hm n hn, (isInside_iff _ _).1 (h.inside m hm) s hs n hn⟩]
  exact length_firsts_add_length_gaps g.messages s.toNat

/-- The count rule declares a group ready at the threshold, and where the messages without a
position are as many as the gaps of its sequence. -/
theorem isReady_count_iff (h : g.Placed) (threshold : Threshold) :
    (ReleaseRule.count threshold).isReady g = true ↔
      threshold.value ≤ g.length ∨ ∃ s, g.size = some s ∧
        (g.messages.filter (!·.isNumbered)).length = (gaps g.messages s.toNat).length := by
  have hmessages := List.length_eq_length_filter_add (l := g.messages) (·.isNumbered)
  unfold ReleaseRule.isReady
  cases hs : g.size with
  | none => simp
  | some s =>
    have hpositions := h.length_numbered_add_length_gaps hs
    have hlength : g.length = s.toNat ↔
        (g.messages.filter (!·.isNumbered)).length = (gaps g.messages s.toNat).length := by
      unfold length
      omega
    simp [hlength]

end Placed

/-- A group holds its whole sequence if that has no gap. -/
lemma hasWholeSequence_iff_gaps (g : Group) :
    g.hasWholeSequence = true ↔ ∃ s, g.size = some s ∧ gaps g.messages s.toNat = [] := by
  rw [hasWholeSequence_iff]
  exact exists_congr fun s => and_congr_right fun _ => (gaps_eq_nil_iff s.toNat_lt).symm

end Group

namespace Collector

variable {c : Collector} {g g' : Group} {m : Message}

/-! ## One call -/

/-- What is left in the store of a group that a message joins is placed if the group was. -/
lemma placed_receive (h : (g.join m).Placed) (he : (c.receive g m).1 = some g') : g'.Placed := by
  have hproc : (c.processor.process (g.join m)).2.Placed :=
    h.of_sublist (c.processor.process_sublist _) (by rw [Processor.process_snd])
  rcases c.eq_of_receive_fst he with rfl | rfl | rfl
  · exact h
  · exact hproc
  · exact hproc.of_sublist (List.nil_sublist _) rfl

/-! ## Every call -/

variable {σ : Type} {t : Transport σ} {channels : σ}

/-- In every stored group the messages are placed. -/
theorem placed_of_stored {calls : List Call} {key : Key}
    (hg : groupIn (c.after t (c.start channels) calls) key = some g) : g.Placed := by
  refine c.stored_induction t Group.placed_new ?_ channels calls key g hg
  intro g m left h hobj hwf he
  exact placed_receive (h.join (Group.welcomes_of_objection?_eq_none hobj) hwf) he

/-- A collector gets to see a group: it is stored behind some calls, or a message that is accepted
behind them makes it what it is, and the release rule looks at it then. -/
inductive Reached (c : Collector) (t : Transport σ) (channels : σ) : Group → Prop where
  /-- The group is stored behind the calls. -/
  | stored {calls : List Call} {key : Key} {g : Group}
      (hg : groupIn (c.after t (c.start channels) calls) key = some g) : Reached c t channels g
  /-- A message has joined the group. -/
  | joined {calls : List Call} {key : Key} {m : Message} {now : Instant}
      (hm : c.accepted key (c.after t (c.start channels) calls) (.handle m now) = [m]) :
      Reached c t channels
        (((c.after t (c.start channels) calls).holdings.store.groupOf key now).join m)

/-- In every group that a collector gets to see the messages are placed. -/
lemma Reached.placed (h : c.Reached t channels g) : g.Placed := by
  cases h with
  | stored hg => exact placed_of_stored hg
  | @joined calls key m now hm =>
    have hjoins := c.joins_of_accepted t key (c.valid_after_start t channels calls) hm
    have hmet : ((c.after t (c.start channels) calls).holdings.store.groupOf key now).Placed :=
      Store.groupOf_induction (fun _ hg => placed_of_stored hg) fun _ => Group.placed_new key now
    exact hmet.join (Group.welcomes_of_objection?_eq_none hjoins.welcome) hjoins.wellFormed

/-- **The count rule is right about whole sequences where all messages have a position**, for any
threshold, processor and settings, and for every group that a collector gets to see. It declares the
group ready at the threshold, and where the messages without a position are as many as the gaps of
the sequence. That is when the group holds the threshold or its whole sequence, unless the group is
below the threshold and has messages without a position: then it is the opposite of what it should
be if there is no gap, or if there are as many gaps as such messages.

**Proof sketch.** The messages with a position and the gaps are as many as the sequence is long
(`Group.Placed.length_numbered_add_length_gaps`), because no position is taken twice and none lies
beyond the end. -/
theorem isReady_iff_of_reached (c : Collector) (n : ℕ)
    (hrule : c.releaseRule = .count (.ofNat n)) {σ : Type} (t : Transport σ) (channels : σ)
    (g : Group) (hg : c.Reached t channels g) :
    let unnumbered := (g.messages.filter (!·.isNumbered)).length
    let missing := fun s : SequenceNumber => (gaps g.messages s.toNat).length
    (c.releaseRule.isReady g = true ↔
      max n 1 ≤ g.length ∨ ∃ s, g.size = some s ∧ unnumbered = missing s) ∧
    (g.hasWholeSequence = true ↔ ∃ s, g.size = some s ∧ missing s = 0) ∧
    ((c.releaseRule.isReady g = true ↔ max n 1 ≤ g.length ∨ g.hasWholeSequence = true) ↔
      max n 1 ≤ g.length ∨ unnumbered = 0 ∨
        ∀ s, g.size = some s → missing s ≠ 0 ∧ missing s ≠ unnumbered) := by
  intro unnumbered missing
  have hready : c.releaseRule.isReady g = true ↔
      max n 1 ≤ g.length ∨ ∃ s, g.size = some s ∧ unnumbered = missing s := by
    rw [hrule]
    exact hg.placed.isReady_count_iff (.ofNat n)
  have hwhole : g.hasWholeSequence = true ↔ ∃ s, g.size = some s ∧ missing s = 0 := by
    rw [Group.hasWholeSequence_iff_gaps]
    exact exists_congr fun s => and_congr_right fun _ => List.length_eq_zero_iff.symm
  refine ⟨hready, hwhole, ?_⟩
  rw [hready, hwhole]
  cases hs : g.size with
  | none => simp
  | some s =>
    simp only [Option.some.injEq, exists_eq_left', forall_eq']
    omega

/-- Ten messages or the whole sequence are waited for. A message without a position and the first of
two are released, though the second is missing. Two messages without a position and both of two are
not, though none is missing. -/
theorem isReady_iff_of_reached_mixed :
    let m := fun payload headers => Message.build (.bare payload) (.correlationId "a" :: headers)
    let c := processing .default (.correlation .refuse) .passThrough
      (some (.count (.ofNat 10))) true
    let one := m "one" [.sequence 1 2]
    let two := m "two" [.sequence 2 2]
    let lacking : Group := ⟨"a", [m "other" [], one], some 2, .start, 2, ⟨5⟩, false⟩
    let whole : Group := ⟨"a", [m "x" [], m "y" [], one, two], some 2, .start, 4, ⟨5⟩, false⟩
    (c.Reached .recording [] lacking ∧ c.releaseRule.isReady lacking = true ∧
      lacking.hasWholeSequence = false) ∧
      c.Reached .recording [] whole ∧ c.releaseRule.isReady whole = false ∧
      whole.hasWholeSequence = true := by
  intro m c one two lacking whole
  have hlacking : c.Reached .recording [] lacking := by
    have hjoined : c.accepted "a"
        (c.after .recording (c.start []) [.handle (m "other" []) ⟨5⟩])
        (.handle one ⟨6⟩) = [one] := by decide
    exact .joined hjoined
  have hwhole : c.Reached .recording [] whole := by
    have hstored : groupIn (c.after .recording (c.start []) [.handle (m "x" []) ⟨5⟩,
        .handle (m "y" []) ⟨6⟩, .handle one ⟨7⟩, .handle two ⟨8⟩]) "a" = some whole := by decide
    exact .stored hstored
  obtain ⟨hready, hmissing, -⟩ := isReady_iff_of_reached c 10 rfl .recording [] lacking hlacking
  obtain ⟨hready', hmissing', -⟩ := isReady_iff_of_reached c 10 rfl .recording [] whole hwhole
  refine ⟨⟨hlacking, hready.2 (.inr ⟨2, rfl, by decide⟩), ?_⟩, hwhole, ?_,
    hmissing'.2 ⟨2, rfl, by decide⟩⟩
  · rw [← Bool.not_eq_true, hmissing]
    rintro ⟨s, hs, hnone⟩
    obtain rfl : 2 = s := Option.some.inj hs
    exact absurd hnone (by decide)
  · rw [← Bool.not_eq_true, hready']
    rintro (hmany | ⟨s, hs, hequal⟩)
    · exact absurd hmany (by decide)
    · obtain rfl : 2 = s := Option.some.inj hs
      exact absurd hequal (by decide)

/-- The count rule is not always right about whole sequences: below the threshold a message without
a position and the first of two pass for the whole sequence. -/
theorem not_forall_isReady_iff :
    ¬ ∀ (c : Collector) (n : ℕ), c.releaseRule = .count (.ofNat n) →
      c.settings.strictSize = false → ∀ g : Group, c.Reached .recording [] g →
        (c.releaseRule.isReady g = true ↔ max n 1 ≤ g.length ∨ g.hasWholeSequence = true) := by
  intro hall
  let m := fun payload headers => Message.build (.bare payload) (.correlationId "a" :: headers)
  let c := processing .default (.correlation .refuse) .passThrough
    (some (.count (.ofNat 10))) true
  have hjoined : c.accepted "a"
      (c.after .recording (c.start []) [.handle (m "other" []) ⟨5⟩])
      (.handle (m "one" [.sequence 1 2]) ⟨6⟩) = [m "one" [.sequence 1 2]] := by decide
  exact absurd (hall c 10 rfl rfl _ (.joined hjoined)) (by decide)

end Collector

end Regroup
