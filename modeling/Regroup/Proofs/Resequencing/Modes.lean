import Regroup.Message.Edit
import Regroup.Proofs.Collector.Log
import Regroup.Proofs.Resequencing.Progress

/-!
# Runs and whole sequences

Two resequencers are called alike, and differ only in that one of them releases runs and the other
one whole sequences. The one of runs is ahead in what it sends, but only as long as a group is
there. In all else that can be seen from outside they do the same.

## Main definitions

* `Regroup.Collector.Counterparts` — two resequencers that differ in what they release.
* `Regroup.Collector.Twins` — two groups that have accepted the same messages.
* `Regroup.Collector.InStep`, `Regroup.Collector.Alike` — what the two hold for a key, and for all
  keys, is the same up to what the one of runs is ahead.
* `Regroup.Collector.Abreast` — what is seen of calls is the same up to that.

## Main results

* `Regroup.Group.Reflects.objection?_congr` — groups that have accepted the same messages have the
  same objections.
* `Regroup.Collector.Twins.receive` — twins that a message joins stay twins or come to their end
  together.
* `Regroup.Collector.Alike.abreast_of_calls` — the two stay abreast.
* `Regroup.Collector.sameOutside_of_calls` — from outside the two look the same.
-/

namespace Regroup

open SequenceNumber

variable {accepted : List Message} {m : Message} {now : Instant} {key : Key}

/-! ## Groups that have accepted the same messages -/

namespace Group

variable {g g₁ g₂ : Group}

/-- A message without a position is a duplicate if an equal one is buffered, which has no position
either. -/
lemma isDuplicate_of_unnumbered (g : Group) (hn : m.number = none) :
    g.isDuplicate m = (g.messages.filter (!·.isNumbered)).any (·.same m) := by
  rw [isDuplicate, hn, Bool.false_or, List.any_filter]
  congr 1
  funext a
  cases hsame : a.same m with
  | false => simp
  | true => simp [Message.isNumbered, number_eq_of_same hsame, hn]

/-- Groups that have accepted the same messages have the same objections to a message that makes
sense, unless they are strict about lengths.

**Proof sketch.** Length and range are told by what has been accepted. A position inside the range
is taken if it has been accepted, whether it is buffered or has been released, and messages without
a position are never released alone. -/
theorem Reflects.objection?_congr (h₁ : g₁.Reflects accepted) (h₂ : g₂.Reflects accepted)
    (hwf : m.isWellFormed = true) : g₁.objection? m false = g₂.objection? m false := by
  have hsize : g₁.size = g₂.size := h₁.size_eq.trans h₂.size_eq.symm
  have hconflict : g₁.conflictsWith m false = g₂.conflictsWith m false := by
    simp [conflictsWith, hsize]
  have hrange : g₁.isOutOfRange m = g₂.isOutOfRange m := by
    simp [isOutOfRange, hsize]
  unfold objection?
  rw [h₁.isOpen, h₂.isOpen, hconflict, hrange]
  cases hout : g₂.isOutOfRange m with
  | true => rfl
  | false =>
    have hin := isInside_of_isOutOfRange_eq_false hout
    have hdup : g₁.isDuplicate m = g₂.isDuplicate m := by
      cases hn : m.number with
      | none =>
        rw [g₁.isDuplicate_of_unnumbered hn, g₂.isDuplicate_of_unnumbered hn,
          h₁.filter_unnumbered, h₂.filter_unnumbered]
      | some i =>
        have hpos := ((m.isWellFormed_iff).1 hwf).1 i hn
        rw [Bool.eq_iff_iff, h₂.isDuplicate_iff hn hpos hin,
          h₁.isDuplicate_iff hn hpos (by rwa [hsize])]
    rw [hdup]

end Group

/-- The messages up to a position and those behind it make up a stretch. -/
lemma firsts_append_firstsFrom (ms : List Message) {n : ℕ} (hn : 0 < n) (k : ℕ) :
    firsts ms (n - 1) ++ firstsFrom ms n k = firsts ms (n - 1 + k) := by
  rw [firsts, firsts, firstsFrom_add, Nat.add_sub_cancel' hn]

namespace Collector

/-! ## Groups of the two -/

/-- Two resequencers by their own rule, the first one of whole sequences and the second one of runs,
that are alike in all else. They are not strict about lengths, and a group that is closed early
releases what it has. -/
structure Counterparts (c₁ c₂ : Collector) : Prop where
  whole : c₁.Resequences ⟨false⟩
  runs : c₂.Resequences ⟨true⟩
  keyRule_eq : c₁.keyRule = c₂.keyRule
  discards_eq : c₁.discards = c₂.discards
  lenient₁ : c₁.settings.strictSize = false
  lenient₂ : c₂.settings.strictSize = false
  early₁ : c₁.settings.sendsEarlyResults = true
  early₂ : c₂.settings.sendsEarlyResults = true

/-- A group of the first and one of the second have accepted the same messages. -/
structure Twins (c₁ c₂ : Collector) (g₁ g₂ : Group) (accepted : List Message) : Prop where
  whole : c₁.Follows g₁ accepted
  runs : c₂.Follows g₂ accepted
  ne_last : ∀ a ∈ accepted, a.number ≠ some last

/-- What has been sent of a group of runs that is still there. -/
def lead (g : Group) (accepted : List Message) : List Send :=
  (firsts accepted (g.barrier.next.toNat - 1)).map Send.release

/-- The two hold the same for a key, and the second has sent so much more. -/
inductive InStep (c₁ c₂ : Collector) : Option Group → Option Group → List Send → Prop where
  /-- There is no group. -/
  | gone : InStep c₁ c₂ none none []
  /-- There are two groups that have accepted the same messages. -/
  | twins {g₁ g₂ : Group} {accepted : List Message} (h : Twins c₁ c₂ g₁ g₂ accepted) :
    InStep c₁ c₂ (some g₁) (some g₂) (lead g₂ accepted)

variable {c₁ c₂ : Collector} {g₁ g₂ : Group}

/-- What is sent to discard messages is a matter of whether there is a channel for them. -/
lemma discardPlan_congr (h : c₁.discards = c₂.discards) (ms : List Message) :
    c₁.discardPlan ms = c₂.discardPlan ms := by
  rw [discardPlan, discardPlan, h]

/-- The groups that a message meets, new or not, are twins. -/
lemma InStep.exists_twins {o₁ o₂ : Option Group} {ahead : List Send}
    (h : InStep c₁ c₂ o₁ o₂ ahead) (key : Key) (now : Instant) :
    ∃ accepted, Twins c₁ c₂ (o₁.getD (.new key now)) (o₂.getD (.new key now)) accepted ∧
      ahead = lead (o₂.getD (.new key now)) accepted := by
  cases h with
  | gone => exact ⟨[], ⟨follows_new key now, follows_new key now, by simp⟩, rfl⟩
  | twins h => exact ⟨_, h, rfl⟩

/-- Either both hold a group or neither does. -/
lemma InStep.eq_none_iff {o₁ o₂ : Option Group} {ahead : List Send}
    (h : InStep c₁ c₂ o₁ o₂ ahead) : o₁ = none ↔ o₂ = none := by
  cases h <;> simp

/-- Where there is no group the second is not ahead. -/
lemma InStep.ahead_eq_nil {o₁ o₂ : Option Group} {ahead : List Send}
    (h : InStep c₁ c₂ o₁ o₂ ahead) (hnone : o₁ = none) : ahead = [] := by
  cases h with
  | gone => rfl
  | twins h => simp at hnone

/-- A message that joins both keeps groups twins. -/
lemma Twins.join (h : Twins c₁ c₂ g₁ g₂ accepted) (hw₁ : g₁.Welcomes m) (hw₂ : g₂.Welcomes m)
    (hwf : m.isWellFormed = true) (hm : m.number ≠ some last) :
    Twins c₁ c₂ (g₁.join m) (g₂.join m) (accepted ++ [m]) where
  whole := h.whole.join hw₁ hwf
  runs := h.runs.join hw₂ hwf
  ne_last := by
    intro a ha
    rcases List.mem_append.1 ha with ha | ha
    · exact h.ne_last a ha
    · rwa [List.mem_singleton.1 ha]

/-- What is sent of groups that a message joins, up to what the second is ahead.

**Proof sketch.** Both come to their end exactly if all positions have been accepted
(`Advances.fst_eq_none_iff`), and then the first sends what the second has sent before and what it
sends now. Until then the first sends nothing. -/
theorem Twins.receive (hc : Counterparts c₁ c₂)
    (h : Twins c₁ c₂ (g₁.join m) (g₂.join m) accepted) :
    (∃ ahead, InStep c₁ c₂ (c₁.receive g₁ m).1 (c₂.receive g₂ m).1 ahead ∧
      lead g₂ accepted ++ (c₂.receive g₂ m).2.filter (·.isOutput) =
        (c₁.receive g₁ m).2.filter (·.isOutput) ++ ahead) ∧
      (c₁.receive g₁ m).2.filter (!·.isOutput) = (c₂.receive g₂ m).2.filter (!·.isOutput) := by
  obtain ⟨k₁, hk₁⟩ := receive_advances hc.whole h.whole fun a ha _ => h.ne_last a ha
  obtain ⟨k₂, hk₂⟩ := receive_advances hc.runs h.runs fun a ha _ => h.ne_last a ha
  have hp : c₁.processor.releasesRuns = false := hc.whole.releasesRuns_eq
  have hfirst : g₁.barrier.next.toNat = 1 := by
    rw [← g₁.barrier_join m, h.whole.unmoved hp]
    rfl
  have hpos : 0 < g₂.barrier.next.toNat := by
    rw [← g₂.barrier_join m]
    exact h.runs.reflects.next_pos
  have hiff : (c₁.receive g₁ m).1 = none ↔ (c₂.receive g₂ m).1 = none :=
    (hk₁.fst_eq_none_iff hc.whole).trans (hk₂.fst_eq_none_iff hc.runs).symm
  rw [hfirst] at hk₁
  rw [hk₁.filter_isOutput, hk₂.filter_isOutput, lead, ← List.map_append,
    firsts_append_firstsFrom accepted hpos]
  refine ⟨?_, ?_⟩
  · cases he₁ : (c₁.receive g₁ m).1 with
    | none =>
      have he₂ := hiff.1 he₁
      obtain ⟨s, hs, hend₁, -⟩ := hk₁.ends he₁
      obtain ⟨s', hs', hend₂, -⟩ := hk₂.ends he₂
      obtain rfl : s = s' := Option.some.inj (hs.symm.trans hs')
      rw [he₂]
      refine ⟨[], .gone, ?_⟩
      rw [List.append_nil, firsts]
      congr 2
      omega
    | some left₁ =>
      have hstays : (c₂.receive g₂ m).1 ≠ none := fun he => by
        rw [hiff.2 he] at he₁
        simp at he₁
      obtain ⟨left₂, he₂⟩ := Option.ne_none_iff_exists'.1 hstays
      obtain ⟨hf₁, -, hnext₁, -⟩ := hk₁.stays left₁ he₁
      obtain ⟨hf₂, -, hnext₂, -⟩ := hk₂.stays left₂ he₂
      -- nothing of a whole sequence is sent before its end
      have hunmoved : left₁.barrier.next.toNat = 1 := by
        rw [hf₁.unmoved hp]
        rfl
      obtain rfl : k₁ = 0 := by omega
      rw [he₂]
      refine ⟨_, .twins ⟨hf₁, hf₂, h.ne_last⟩, ?_⟩
      rw [firstsFrom_zero, List.map_nil, List.nil_append, lead]
      congr 2
      omega
  · rw [hk₁.filter_not_isOutput, hk₂.filter_not_isOutput, discardPlan_congr hc.discards_eq]
    simp only [hiff]

/-- What leaves twins that are closed, up to what the second is ahead. -/
lemma Twins.outOfClosed (hc : Counterparts c₁ c₂) (h : Twins c₁ c₂ g₁ g₂ accepted) :
    lead g₂ accepted ++ (c₂.outOfClosed g₂).released.map Send.release =
        (c₁.outOfClosed g₁).released.map Send.release ∧
      (c₁.outOfClosed g₁).discarded = (c₂.outOfClosed g₂).discarded := by
  have hsize : g₁.size = g₂.size := h.whole.reflects.size_eq.trans h.runs.reflects.size_eq.symm
  have hfirst : g₁.barrier.next.toNat = 1 := by
    rw [h.whole.unmoved hc.whole.releasesRuns_eq]
    rfl
  have hle := Group.next_le_limit h.runs.undrained
  have hpos := h.runs.reflects.next_pos
  rw [outOfClosed_of_reflects c₁ hc.whole.processor_eq hc.early₁ h.whole.reflects
      h.whole.undrained,
    outOfClosed_of_reflects c₂ hc.runs.processor_eq hc.early₂ h.runs.reflects h.runs.undrained,
    hfirst, hsize]
  refine ⟨?_, rfl⟩
  rw [lead, ← List.map_append, firsts_append_firstsFrom accepted hpos, firsts]
  congr 2
  omega

/-! ## One call -/

variable {σ₁ σ₂ : Type} {t₁ : Transport σ₁} {t₂ : Transport σ₂} {w₁ : World σ₁} {w₂ : World σ₂}
  {ahead ahead' : Key → List Send}

/-- The two hold the same for all keys, and the second has sent so much more for each of them. -/
structure Alike (c₁ c₂ : Collector) (ahead : Key → List Send) (w₁ : World σ₁) (w₂ : World σ₂) :
    Prop where
  valid₁ : w₁.holdings.store.Valid
  valid₂ : w₂.holdings.store.Valid
  unlimited₁ : w₁.holdings.store.capacity = none
  unlimited₂ : w₂.holdings.store.capacity = none
  issued_eq : w₁.holdings.issued = w₂.holdings.issued
  inStep : ∀ key, InStep c₁ c₂ (groupIn w₁ key) (groupIn w₂ key) (ahead key)

/-- What is seen of calls is the same for both, up to what the second is ahead before and behind
them. -/
structure Abreast (c₁ c₂ : Collector) (t₁ : Transport σ₁) (t₂ : Transport σ₂)
    (ahead ahead' : Key → List Send) (w₁ : World σ₁) (w₂ : World σ₂) (calls : List Call) :
    Prop where
  /-- The two hold the same behind the calls. -/
  alike : Alike c₁ c₂ ahead' (c₁.after t₁ w₁ calls) (c₂.after t₂ w₂ calls)
  /-- They answer the same. -/
  answers_eq : c₁.answers t₁ w₁ calls = c₂.answers t₂ w₂ calls
  /-- They discard the same. -/
  discarded_eq : (c₁.sends t₁ w₁ calls).filter (!·.isOutput) =
    (c₂.sends t₂ w₂ calls).filter (!·.isOutput)
  /-- They send the same to the output path for each key, up to what the second is ahead. -/
  emissions_eq : ∀ key, ahead key ++ c₂.emissions t₂ key w₂ calls =
    c₁.emissions t₁ key w₁ calls ++ ahead' key

/-- Before any call the two are abreast. -/
lemma Alike.abreast_nil (h : Alike c₁ c₂ ahead w₁ w₂) :
    Abreast c₁ c₂ t₁ t₂ ahead ahead w₁ w₂ [] where
  alike := h
  answers_eq := rfl
  discarded_eq := rfl
  emissions_eq _ := by simp [emissions, collect]

/-- Two resequencers that are abreast at a call, and then at further calls, are abreast at all of
them. -/
lemma Abreast.cons {ahead'' : Key → List Send} {call : Call} {calls : List Call}
    (h : Abreast c₁ c₂ t₁ t₂ ahead ahead' w₁ w₂ [call])
    (h' : Abreast c₁ c₂ t₁ t₂ ahead' ahead'' (c₁.perform t₁ w₁ call).world
      (c₂.perform t₂ w₂ call).world calls) :
    Abreast c₁ c₂ t₁ t₂ ahead ahead'' w₁ w₂ (call :: calls) where
  alike := h'.alike
  answers_eq := by
    have hcall : [(c₁.perform t₁ w₁ call).answer] = [(c₂.perform t₂ w₂ call).answer] := h.answers_eq
    show (c₁.perform t₁ w₁ call).answer :: c₁.answers t₁ _ calls =
      (c₂.perform t₂ w₂ call).answer :: c₂.answers t₂ _ calls
    rw [List.singleton_inj.1 hcall, h'.answers_eq]
  discarded_eq := by
    have hcall := h.discarded_eq
    simp only [sends, collect, List.append_nil] at hcall
    show ((c₁.perform t₁ w₁ call).delivered ++ c₁.sends t₁ _ calls).filter _ =
      ((c₂.perform t₂ w₂ call).delivered ++ c₂.sends t₂ _ calls).filter _
    rw [List.filter_append, List.filter_append, hcall, h'.discarded_eq]
  emissions_eq key := by
    have hcall := h.emissions_eq key
    simp only [emissions, collect, List.append_nil] at hcall
    show ahead key ++ (c₂.emitted t₂ key w₂ call ++ c₂.emissions t₂ key _ calls) =
      c₁.emitted t₁ key w₁ call ++ c₁.emissions t₁ key _ calls ++ ahead'' key
    rw [← List.append_assoc, hcall, List.append_assoc, h'.emissions_eq, List.append_assoc]

/-- The two are abreast at a call if they hold, answer, discard and send the same. -/
lemma abreast_singleton {call : Call}
    (halike : Alike c₁ c₂ ahead' (c₁.perform t₁ w₁ call).world (c₂.perform t₂ w₂ call).world)
    (hanswer : (c₁.perform t₁ w₁ call).answer = (c₂.perform t₂ w₂ call).answer)
    (hdiscarded : (c₁.perform t₁ w₁ call).delivered.filter (!·.isOutput) =
      (c₂.perform t₂ w₂ call).delivered.filter (!·.isOutput))
    (hemitted : ∀ key, ahead key ++ c₂.emitted t₂ key w₂ call =
      c₁.emitted t₁ key w₁ call ++ ahead' key) :
    Abreast c₁ c₂ t₁ t₂ ahead ahead' w₁ w₂ [call] where
  alike := halike
  answers_eq := by simp [answers, runAll, hanswer]
  discarded_eq := by simpa [sends, collect] using hdiscarded
  emissions_eq key := by simpa [emissions, collect] using hemitted key

section Step

variable (hc : Counterparts c₁ c₂) (h : Alike c₁ c₂ ahead w₁ w₂)
include hc h

/-- The two judge a message alike. -/
lemma Alike.judge_eq (now : Instant) (m : Message) :
    c₁.judge w₁.holdings now m = c₂.judge w₂.holdings now m := by
  unfold judge
  rw [hc.keyRule_eq, h.issued_eq]
  cases (c₂.keyRule.resolve w₂.holdings.issued m).1 with
  | none => rfl
  | some key =>
    cases hwf : m.isWellFormed with
    | false => rfl
    | true =>
      obtain ⟨accepted, htwins, -⟩ := (h.inStep key).exists_twins key now
      have hobjection : (w₁.holdings.store.groupOf key now).objection? m false =
          (w₂.holdings.store.groupOf key now).objection? m false :=
        htwins.whole.reflects.objection?_congr htwins.runs.reflects hwf
      simp only [hc.lenient₁, hc.lenient₂, hobjection,
        Store.hasRoom_of_capacity_eq_none h.unlimited₁,
        Store.hasRoom_of_capacity_eq_none h.unlimited₂, Bool.true_or, if_true]

/-- A message that both accept under a key makes the same of what they hold for it, up to what the
second is ahead. -/
lemma Alike.receive (hwf : m.isWellFormed = true) (hm : m.number ≠ some last)
    {strict₁ strict₂ : Bool}
    (hw₁ : (w₁.holdings.store.groupOf key now).objection? m strict₁ = none)
    (hw₂ : (w₂.holdings.store.groupOf key now).objection? m strict₂ = none) :
    let result₁ := c₁.receive (w₁.holdings.store.groupOf key now) m
    let result₂ := c₂.receive (w₂.holdings.store.groupOf key now) m
    (∃ ahead', InStep c₁ c₂ result₁.1 result₂.1 ahead' ∧
      ahead key ++ result₂.2.filter (·.isOutput) = result₁.2.filter (·.isOutput) ++ ahead') ∧
      result₁.2.filter (!·.isOutput) = result₂.2.filter (!·.isOutput) := by
  obtain ⟨accepted, htwins, hahead⟩ := (h.inStep key).exists_twins key now
  have hjoin : Twins c₁ c₂ ((w₁.holdings.store.groupOf key now).join m)
      ((w₂.holdings.store.groupOf key now).join m) (accepted ++ [m]) :=
    htwins.join (Group.welcomes_of_objection?_eq_none hw₁)
      (Group.welcomes_of_objection?_eq_none hw₂) hwf hm
  have hreflects : (w₂.holdings.store.groupOf key now).Reflects accepted := htwins.runs.reflects
  have hlt := (w₂.holdings.store.groupOf key now).barrier.next.toNat_lt
  have hlead : ahead key = lead (w₂.holdings.store.groupOf key now) (accepted ++ [m]) := by
    rw [hahead, lead, lead, firsts_append hreflects.covers (by omega)]
    rfl
  rw [hlead]
  exact hjoin.receive hc

/-- Both discard the same because of a message that both are handed. -/
private lemma Alike.discarded_handle (hm : m.number ≠ some last) (now : Instant) :
    (c₁.handle w₁.holdings now m).1.plan.filter (!·.isOutput) =
      (c₂.handle w₂.holdings now m).1.plan.filter (!·.isOutput) := by
  have hverdict : (c₁.handle w₁.holdings now m).1.verdict =
      (c₂.handle w₂.holdings now m).1.verdict := by
    rw [c₁.verdict_handle h.valid₁, c₂.verdict_handle h.valid₂, h.judge_eq hc]
  cases c₁.outcome_handle h.valid₁ now m with
  | refused _ verdict₁ _ plan₁ =>
    cases c₂.outcome_handle h.valid₂ now m with
    | accepted _ _ _ _ verdict₂ => exact absurd (hverdict.trans verdict₂) verdict₁
    | refused _ _ _ plan₂ =>
      rw [plan₁, plan₂, hverdict, refusalPlan_eq, refusalPlan_eq,
        filter_not_isOutput_outgoingPlan, filter_not_isOutput_outgoingPlan,
        discardPlan_congr hc.discards_eq]
  | accepted key₁ resolved₁ wellFormed welcome₁ verdict₁ plan₁ =>
    cases c₂.outcome_handle h.valid₂ now m with
    | refused _ verdict₂ => exact absurd (hverdict.symm.trans verdict₁) verdict₂
    | accepted key₂ resolved₂ _ welcome₂ _ plan₂ =>
      rw [hc.keyRule_eq, h.issued_eq] at resolved₁
      obtain rfl : key₁ = key₂ := Option.some.inj (resolved₁.symm.trans resolved₂)
      rw [plan₁, plan₂]
      exact (h.receive hc wellFormed hm welcome₁ welcome₂).2

/-- Both send the same because of a group that is closed, up to what the second is ahead, and
discard the same. -/
private lemma Alike.close (k : Key) :
    ahead k ++ (c₂.close w₂.holdings.store k).2.filter (·.isOutput) =
        (c₁.close w₁.holdings.store k).2.filter (·.isOutput) ∧
      (c₁.close w₁.holdings.store k).2.filter (!·.isOutput) =
        (c₂.close w₂.holdings.store k).2.filter (!·.isOutput) := by
  have hk := h.inStep k
  generalize hg₁ : groupIn w₁ k = o₁ at hk
  generalize hg₂ : groupIn w₂ k = o₂ at hk
  generalize ahead k = lead at hk ⊢
  cases hk with
  | gone =>
    rw [c₁.close_of_absent hg₁, c₂.close_of_absent hg₂]
    exact ⟨rfl, rfl⟩
  | twins htwins =>
    obtain ⟨hreleased, hdiscarded⟩ := htwins.outOfClosed hc
    rw [c₁.close_of_get? hg₁, c₂.close_of_get? hg₂, filter_isOutput_outgoingPlan,
      filter_isOutput_outgoingPlan, filter_not_isOutput_outgoingPlan,
      filter_not_isOutput_outgoingPlan, hdiscarded, discardPlan_congr hc.discards_eq]
    exact ⟨hreleased, rfl⟩

variable (htakes₁ : ∀ target, t₁.Takes target) (htakes₂ : ∀ target, t₂.Takes target)
include htakes₁ htakes₂

/-- Behind a message that both are handed the two hold the same for a key, up to what the second is
ahead. -/
private lemma Alike.inStep_handle (hm : m.number ≠ some last) (now : Instant) (key : Key) :
    ∃ ahead', InStep c₁ c₂ (groupIn (c₁.perform t₁ w₁ (.handle m now)).world key)
        (groupIn (c₂.perform t₂ w₂ (.handle m now)).world key) ahead' ∧
      ahead key ++ c₂.emitted t₂ key w₂ (.handle m now) =
        c₁.emitted t₁ key w₁ (.handle m now) ++ ahead' := by
  have hacc : c₁.accepted key w₁ (.handle m now) = c₂.accepted key w₂ (.handle m now) := by
    simp only [accepted, IsFor, c₁.verdict_handle h.valid₁, c₂.verdict_handle h.valid₂,
      h.judge_eq hc, hc.keyRule_eq, h.issued_eq]
  rw [c₁.emitted_handle_of_takes key htakes₁, c₂.emitted_handle_of_takes key htakes₂]
  cases c₁.turn t₁ key h.valid₁ (.handle m now) with
  | closed early => exact absurd rfl (early m now)
  | idle same₁ acc₁ _ rel₁ =>
    cases c₂.turn t₂ key h.valid₂ (.handle m now) with
    | closed early => exact absurd rfl (early m now)
    | joined _ _ _ _ _ _ _ acc₂ => simp [hacc.symm.trans acc₁] at acc₂
    | idle same₂ _ _ rel₂ =>
      rw [same₁, same₂, rel₁, rel₂, List.append_nil]
      exact ⟨ahead key, h.inStep key, rfl⟩
  | joined m₁ now₁ handed₁ isFor₁ wellFormed welcome₁ next₁ acc₁ _ plan₁ =>
    obtain ⟨rfl, rfl⟩ := Call.handle.inj handed₁
    cases c₂.turn t₂ key h.valid₂ (.handle m now) with
    | closed early => exact absurd rfl (early m now)
    | idle _ acc₂ => simp [hacc.symm.trans acc₁] at acc₂
    | joined m₂ now₂ handed₂ isFor₂ _ welcome₂ next₂ _ _ plan₂ =>
      obtain ⟨rfl, rfl⟩ := Call.handle.inj handed₂
      rw [next₁, next₂, released, released, if_pos isFor₁, if_pos isFor₂, plan₁, plan₂]
      exact (h.receive hc wellFormed hm welcome₁ welcome₂).1

/-- The two are abreast at a message that both are handed. -/
theorem Alike.abreast_handle (hm : m.number ≠ some last) (now : Instant) :
    ∃ ahead', Abreast c₁ c₂ t₁ t₂ ahead ahead' w₁ w₂ [.handle m now] := by
  choose ahead' hstep hemitted using h.inStep_handle hc htakes₁ htakes₂ hm now
  refine ⟨ahead', abreast_singleton ?_ ?_ ?_ hemitted⟩
  · refine ⟨c₁.valid_perform t₁ h.valid₁ _, c₂.valid_perform t₂ h.valid₂ _, ?_, ?_, ?_, hstep⟩
    · exact (c₁.capacity_perform t₁ w₁ _).trans h.unlimited₁
    · exact (c₂.capacity_perform t₂ w₂ _).trans h.unlimited₂
    · show (c₁.handle w₁.holdings now m).2 = (c₂.handle w₂.holdings now m).2
      rw [handle_snd, handle_snd, hc.keyRule_eq, h.issued_eq]
  · rw [answer_handle, answer_handle, failure_deliver fun x _ => htakes₁ x.target,
      failure_deliver fun x _ => htakes₂ x.target, c₁.verdict_handle h.valid₁,
      c₂.verdict_handle h.valid₂, h.judge_eq hc]
  · rw [delivered_handle, delivered_handle, delivered_of_takes t₁ htakes₁,
      delivered_of_takes t₂ htakes₂]
    exact h.discarded_handle hc hm now

/-- The two are abreast at the closing of a group, behind which the second is not ahead for it. -/
theorem Alike.abreast_close (k : Key) :
    Abreast c₁ c₂ t₁ t₂ ahead (fun key => if k = key then [] else ahead key) w₁ w₂
      [.close k] := by
  obtain ⟨hreleased, hdiscarded⟩ := h.close hc k
  have hdelivered₁ := c₁.delivered_close t₁ w₁ k
  have hdelivered₂ := c₂.delivered_close t₂ w₂ k
  rw [delivered_of_takes t₁ htakes₁] at hdelivered₁
  rw [delivered_of_takes t₂ htakes₂] at hdelivered₂
  refine abreast_singleton ?_ ?_ ?_ fun key => ?_
  · refine ⟨c₁.valid_perform t₁ h.valid₁ _, c₂.valid_perform t₂ h.valid₂ _, ?_, ?_, h.issued_eq,
      fun key => ?_⟩
    · exact (c₁.capacity_perform t₁ w₁ _).trans h.unlimited₁
    · exact (c₂.capacity_perform t₂ w₂ _).trans h.unlimited₂
    · rw [groupIn_perform_close, groupIn_perform_close]
      split
      · exact .gone
      · exact h.inStep key
  · rw [answer_close, answer_close, failure_deliver fun x _ => htakes₁ x.target,
      failure_deliver fun x _ => htakes₂ x.target]
  · rw [hdelivered₁, hdelivered₂, hdiscarded]
  · rw [emitted_close, emitted_close, hdelivered₁, hdelivered₂]
    by_cases hk : k = key
    · subst hk
      simpa using hreleased
    · simp [hk]

/-- **Two resequencers that differ only in whether they release runs stay abreast.**

**Proof sketch.** Induction on the calls: they are abreast at each of them. -/
theorem Alike.abreast_of_calls {calls : List Call} (hcalls : ∀ now, Call.expire now ∉ calls)
    (hlast : ∀ m now, Call.handle m now ∈ calls → m.number ≠ some last) :
    ∃ ahead', Abreast c₁ c₂ t₁ t₂ ahead ahead' w₁ w₂ calls := by
  induction calls generalizing w₁ w₂ ahead with
  | nil => exact ⟨ahead, h.abreast_nil⟩
  | cons call calls ih =>
    obtain ⟨ahead', hfirst⟩ : ∃ ahead', Abreast c₁ c₂ t₁ t₂ ahead ahead' w₁ w₂ [call] := by
      cases call with
      | expire now => exact absurd List.mem_cons_self (hcalls now)
      | close k => exact ⟨_, h.abreast_close hc htakes₁ htakes₂ k⟩
      | handle m now =>
        exact h.abreast_handle hc htakes₁ htakes₂ (hlast m now List.mem_cons_self) now
    obtain ⟨ahead'', hlater⟩ := ih hfirst.alike
      (fun now hmem => hcalls now (List.mem_cons_of_mem _ hmem))
      fun m now hmem => hlast m now (List.mem_cons_of_mem _ hmem)
    exact ⟨ahead'', hfirst.cons hlater⟩

end Step

/-! ## From outside -/

/-- From outside the two look the same, but for what is sent for groups that are still there: of
that the first has sent a part from the front. -/
structure SameOutside (c₁ c₂ : Collector) (t₁ : Transport σ₁) (t₂ : Transport σ₂) (w₁ : World σ₁)
    (w₂ : World σ₂) (calls : List Call) : Prop where
  /-- Every call has answered the same. -/
  answers_eq : c₁.answers t₁ w₁ calls = c₂.answers t₂ w₂ calls
  /-- The same keys have groups. -/
  stored_iff : ∀ key, groupIn (c₁.after t₁ w₁ calls) key = none ↔
    groupIn (c₂.after t₂ w₂ calls) key = none
  /-- The same messages have been discarded, in the same order. -/
  discarded_eq : (c₁.sends t₁ w₁ calls).filter (!·.isOutput) =
    (c₂.sends t₂ w₂ calls).filter (!·.isOutput)
  /-- What the first has sent to the output path for a key is in front of what the second has. -/
  in_front : ∀ key, c₁.emissions t₁ key w₁ calls <+: c₂.emissions t₂ key w₂ calls
  /-- It is the same where the key has no group. -/
  emissions_eq : ∀ key, groupIn (c₁.after t₁ w₁ calls) key = none →
    c₁.emissions t₁ key w₁ calls = c₂.emissions t₂ key w₂ calls

/-- **Whether runs are released or whole sequences makes no difference in the end.** Two
resequencers that differ only in that look the same from outside, behind any messages handed in and
any groups closed, as long as they are not strict about lengths, release early what they close, have
no capacity and accepting channels, and no message stands at the last position of all.

**Proof sketch.** New resequencers are alike, so they stay abreast (`Alike.abreast_of_calls`). The
second is ahead for a key only as long as there is a group. -/
theorem sameOutside_of_calls (settings : Settings) (hlenient : settings.strictSize = false)
    (hearly : settings.sendsEarlyResults = true) (hcap : settings.capacity = none)
    (keyRule : KeyRule) (discards : Bool)
    (hc₁ : c₁ = resequencing { settings with releasesRuns := false } keyRule none discards)
    (hc₂ : c₂ = resequencing { settings with releasesRuns := true } keyRule none discards)
    (t₁ : Transport σ₁) (t₂ : Transport σ₂) (htakes₁ : ∀ target, t₁.Takes target)
    (htakes₂ : ∀ target, t₂.Takes target) (channels₁ : σ₁) (channels₂ : σ₂) (calls : List Call)
    (hcalls : ∀ now, Call.expire now ∉ calls)
    (hlast : ∀ m now, Call.handle m now ∈ calls → m.number ≠ some last) :
    SameOutside c₁ c₂ t₁ t₂ (c₁.start channels₁) (c₂.start channels₂) calls := by
  have hc : Counterparts c₁ c₂ := by
    rw [hc₁, hc₂]
    exact ⟨resequences_resequencing _ keyRule discards, resequences_resequencing _ keyRule discards,
      rfl, rfl, hlenient, hlenient, hearly, hearly⟩
  have hstart : Alike c₁ c₂ (fun _ => []) (c₁.start channels₁) (c₂.start channels₂) := by
    refine ⟨Store.valid_empty _, Store.valid_empty _, ?_, ?_, rfl, fun key => .gone⟩
    · rw [hc₁]
      exact hcap
    · rw [hc₂]
      exact hcap
  obtain ⟨ahead, h⟩ := hstart.abreast_of_calls hc htakes₁ htakes₂ hcalls hlast
  have hemissions : ∀ key, c₂.emissions t₂ key (c₂.start channels₂) calls =
      c₁.emissions t₁ key (c₁.start channels₁) calls ++ ahead key := h.emissions_eq
  refine ⟨h.answers_eq, fun key => (h.alike.inStep key).eq_none_iff, h.discarded_eq,
    fun key => ⟨ahead key, (hemissions key).symm⟩, fun key hgone => ?_⟩
  rw [hemissions, (h.alike.inStep key).ahead_eq_nil hgone, List.append_nil]

/-- The resequencer of runs is ahead by two messages, until the group is closed. -/
theorem sameOutside_of_calls_ahead :
    let m := fun payload headers => Message.build (.bare payload) (.correlationId "a" :: headers)
    let settings : Settings := { Settings.default with sendsEarlyResults := true }
    let c := fun runs =>
      resequencing { settings with releasesRuns := runs } (.correlation .refuse) none true
    let one := m "one" [.sequenceNumber 1]
    let two := m "two" [.sequenceNumber 2]
    let four := m "four" [.sequenceNumber 4]
    let calls : List Call := [.handle two ⟨5⟩, .handle (m "other" []) ⟨6⟩, .handle one ⟨7⟩,
      .handle two ⟨8⟩, .handle four ⟨9⟩]
    (c false).emissions .recording "a" ((c false).start []) calls = [] ∧
      (c true).emissions .recording "a" ((c true).start []) calls = [one, two].map Send.release ∧
      (c false).emissions .recording "a" ((c false).start []) (calls ++ [.close "a"]) =
        [one, two, four].map Send.release ∧
      SameOutside (c false) (c true) .recording .recording ((c false).start []) ((c true).start [])
        (calls ++ [.close "a"]) := by
  intro m settings c one two four calls
  refine ⟨by decide, by decide, by decide, sameOutside_of_calls settings rfl rfl rfl
    (.correlation .refuse) true rfl rfl .recording .recording Transport.takes_recording
    Transport.takes_recording [] [] (calls ++ [.close "a"]) (by simp [calls]) ?_⟩
  intro x now hx
  simp only [calls, List.cons_append, List.nil_append, List.mem_cons, Call.handle.injEq,
    List.not_mem_nil, or_false, reduceCtorEq] at hx
  rcases hx with ⟨rfl, -⟩ | ⟨rfl, -⟩ | ⟨rfl, -⟩ | ⟨rfl, -⟩ | ⟨rfl, -⟩ <;> decide

end Collector

end Regroup
