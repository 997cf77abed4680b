import Regroup.Message.Edit
import Regroup.Proofs.Collector.Tracking

/-!
# What is true of every stored group

The representation of groups: what a store may hold behind any calls of a collector, whatever its
settings are, whichever of the processors provided it goes by, and whatever becomes of the sends.

## Main definitions

* `Regroup.KeyRule.IsPure` — that a key depends on the message alone.
* `Regroup.Collector.Sound` — what is true of a group stored under a key.

## Main results

* `Regroup.Collector.sound_of_stored` — every stored group is sound.
-/

namespace Regroup

open SequenceNumber

/-- A rule is pure if the key of a message depends on the message alone, and not on how many keys
have been issued. -/
def KeyRule.IsPure (rule : KeyRule) : Prop :=
  ∀ issued issued' m, (rule.resolve issued m).1 = (rule.resolve issued' m).1

/-- Only rules that issue keys are not pure. -/
lemma KeyRule.isPure_iff (rule : KeyRule) : rule.IsPure ↔ rule.missing? ≠ some .issue := by
  constructor
  · rintro h hm
    cases rule with
    | derived key => simp [missing?] at hm
    | correlation missing =>
      obtain rfl : missing = .issue := Option.some.inj hm
      exact absurd (h 0 1 (.bare "")) (by decide)
  · intro h issued issued' m
    cases rule with
    | derived key => rfl
    | correlation missing =>
      unfold resolve
      cases m.correlationId with
      | some id => rfl
      | none =>
        cases missing with
        | refuse => rfl
        | issue => exact absurd rfl h

/-- A pure rule issues no key for a message that it gives one. -/
lemma KeyRule.IsPure.resolve_of_fst_eq {rule : KeyRule} (h : rule.IsPure) {issued' : UInt64}
    {m : Message} {key : Key} (hkey : (rule.resolve issued' m).1 = some key) (issued : UInt64) :
    rule.resolve issued m = (some key, issued) := by
  have hissued : (rule.resolve issued m).2 = issued := by
    rw [resolve_snd, if_neg fun hm => (rule.isPure_iff).1 h hm.1]
  exact Prod.ext ((h issued issued' m).trans hkey) hissued

namespace Collector

/-- What is true of a group that is stored under a key. -/
structure Sound (c : Collector) (key : Key) (g : Group) : Prop where
  /-- The group stands under its own key. -/
  key_eq : g.key = key
  /-- Every buffered message belongs under that key. -/
  belongs : ∀ m ∈ g.messages, ∀ issued, (c.keyRule.resolve issued m).1 = some key
  /-- No two buffered messages have the same position. -/
  distinct : Distinct g.messages
  /-- Every buffered position is at least one and has not been released. -/
  pending : ∀ m ∈ g.messages, ∀ n, m.number = some n → 1 ≤ n ∧ g.barrier.next ≤ n
  /-- No buffered position lies beyond the end of the sequence. -/
  inside : ∀ m ∈ g.messages, ∀ n, m.number = some n → ∀ s, g.size = some s → n ≤ s
  /-- Every buffered message that tells a length tells that of the group. -/
  agreed : ∀ m ∈ g.messages, ∀ s, m.size = some s → g.size = some s
  /-- No two buffered messages without a position are equal. -/
  unequal : g.messages.Pairwise fun a b => a.number = none → b.number = none → a.same b = false
  /-- The barrier stands at a position. -/
  next_pos : 1 ≤ g.barrier.next
  /-- An open group counts its buffered and its released messages. -/
  received_eq : g.completed = false →
    g.received = g.length + (g.barrier.next.toNat - 1)
  /-- The barrier of an open group has not gone past the end of the sequence. -/
  undrained : g.completed = false → g.isDrained = false ∧ ∀ s, g.size = some s → g.barrier.next ≤ s
  /-- A mark buffers nothing, has released no run, and still misses messages of its sequence. -/
  mark : g.completed = true →
    c.settings.discardsLate = true ∧ g.messages = [] ∧ g.barrier = .start ∧
      ∃ s, g.size = some s ∧ g.received < s.toNat

variable {c : Collector} {key : Key} {g : Group} {accepted : List Message}

/-- An open group in step with messages that belong under a key is sound under that key. -/
lemma Follows.sound (h : c.Follows g accepted) (hkey : g.key = key)
    (hb : ∀ m ∈ accepted, ∀ issued, (c.keyRule.resolve issued m).1 = some key) :
    c.Sound key g := by
  have hr := h.reflects
  have hopen := hr.isOpen
  have hmem : ∀ m ∈ g.messages, m ∈ accepted ∧ Group.isInside g.size m = true ∧
      g.barrier.retains m = true := by
    intro m hm
    rwa [hr.messages_eq, List.mem_filter, Bool.and_eq_true] at hm
  have hsub : g.messages.Sublist accepted := by
    rw [hr.messages_eq]
    exact List.filter_sublist
  constructor
  · exact hkey
  · exact fun m hm => hb m (hmem m hm).1
  · exact hr.distinct.sublist hsub
  · intro m hm n hn
    have hpos := toNat_pos (((m.isWellFormed_iff).1 (hr.wellFormed m (hmem m hm).1)).1 n hn)
    have hle := (Barrier.retains_iff _ _).1 (hmem m hm).2.2 n hn
    rw [UInt32.le_iff_toNat_le, UInt32.le_iff_toNat_le, UInt32.toNat_one]
    exact ⟨hpos, hle⟩
  · intro m hm n hn s hs
    rw [UInt32.le_iff_toNat_le]
    exact (Group.isInside_iff _ _).1 (hmem m hm).2.1 s hs n hn
  · exact fun m hm => hr.agreed m (hmem m hm).1
  · exact hr.unequal.sublist hsub
  · rw [UInt32.le_iff_toNat_le, UInt32.toNat_one]
    exact hr.next_pos
  · exact fun _ => hr.received_eq
  · refine fun _ => ⟨h.undrained, fun s hs => ?_⟩
    rw [UInt32.le_iff_toNat_le]
    exact h.next_le hs
  · intro hc
    rw [hopen] at hc
    simp at hc

/-- A mark is sound under its own key. -/
lemma IsMark.sound (h : c.IsMark g) (hkey : g.key = key) : c.Sound key g := by
  have hm := h.messages_eq
  have hnot : ¬ g.completed = false := by
    rw [h.completed]
    simp
  constructor
  · exact hkey
  · simp [hm]
  · rw [hm]
    exact List.nodup_nil
  · simp [hm]
  · simp [hm]
  · simp [hm]
  · rw [hm]
    exact List.Pairwise.nil
  · rw [h.barrier_eq]
    decide
  · exact fun hc => absurd hc hnot
  · exact fun hc => absurd hc hnot
  · exact fun _ => ⟨h.discardsLate, hm, h.barrier_eq, h.received_lt⟩

/-- **Every stored group is sound**, behind any calls of a collector with a pure key rule and one of
the processors provided, for any release rule and settings, at any times, and whatever becomes of
the sends, as long as no message stands at the last position of all.

**Proof sketch.** The group is in a lifetime that began in the calls (`exists_lifetime`). It is in
step with what has been accepted in it, or a mark (`tracks_of_lifetime`), and what has been
accepted was handed in under its key. -/
theorem sound_of_stored (c : Collector) (hpure : c.keyRule.IsPure)
    (hprov : c.processor.isProvided = true) {σ : Type} (t : Transport σ) (channels : σ)
    (calls : List Call)
    (hlast : ∀ m now, Call.handle m now ∈ calls → m.number ≠ some last) (key : Key) (g : Group)
    (hg : groupIn (c.after t (c.start channels) calls) key = some g) : c.Sound key g := by
  have habsent : groupIn (c.start channels) key = none := rfl
  have hstored : groupIn (c.after t (c.start channels) calls) key ≠ none := by
    rw [hg]
    simp
  obtain ⟨before, life, rfl, hl⟩ := exists_lifetime habsent calls hstored
  have hkey : g.key = key := (c.valid_after_start t channels _).keyed key g hg
  rw [after_append] at hg
  rcases tracks_of_lifetime hprov (c.valid_after_start t channels before) hl
    (fun m now hm _ => hlast m now (List.mem_append_right _ hm)) hg with h | h
  · refine h.sound hkey fun m hm issued => ?_
    obtain ⟨-, issued', hres⟩ := c.mem_history t key hm
    rw [hpure issued issued']
    exact hres
  · exact h.sound hkey

/-- A resequencer of runs has released two messages and waits for the third. -/
theorem sound_of_stored_waiting :
    let m := fun payload number size => Message.build (.bare payload)
      (.correlationId "a" :: .sequenceNumber number :: size)
    let c := resequencing (.resequencing true) (.correlation .refuse) none true
    let calls : List Call := [.handle (m "two" 2 []) ⟨5⟩, .handle (m "one" 1 []) ⟨6⟩,
      .handle (m "four" 4 [.sequenceSize 5]) ⟨7⟩]
    let g : Group := ⟨"a", [m "four" 4 [.sequenceSize 5]], some 5, ⟨3⟩, 3, ⟨5⟩, false⟩
    groupIn (c.after .recording (c.start []) calls) "a" = some g ∧ c.Sound "a" g := by
  intro m c calls g
  have hg : groupIn (c.after .recording (c.start []) calls) "a" = some g := by decide
  refine ⟨hg, sound_of_stored c ((KeyRule.isPure_iff _).2 (by decide)) rfl .recording [] calls ?_
    "a" g hg⟩
  intro x now hx
  simp only [calls, List.mem_cons, Call.handle.injEq, List.not_mem_nil, or_false] at hx
  rcases hx with ⟨rfl, -⟩ | ⟨rfl, -⟩ | ⟨rfl, -⟩ <;> decide

end Collector

end Regroup
