import Regroup.Message.Edit
import Regroup.Proofs.Collector.Occasions
import Regroup.Proofs.Store.Contents

/-!
# Refused messages

A message is accepted unless it has no key, makes no sense, is declined by the group of its key, or
finds the store full. A message that is not accepted leaves no trace in the store, although a group
is opened for it and messages may be evicted for it before that is settled. The store is full for a
message exactly if as many messages are buffered as it may hold and the message evicts none of them.

## Main definitions

* `Regroup.Group.Declines` — that a group has a reason not to take a message.
* `Regroup.Collector.Rejects` — that a message is rejected, whatever room there is.
* `Regroup.Collector.Overfills` — that a message is not rejected and would be one too many.

## Main results

* `Regroup.Collector.judge_ne_accepted_iff` — what is not accepted is rejected or finds no room.
* `Regroup.Collector.judge_eq_unstored_iff` — what finds no room would be one too many.
* `Regroup.Collector.store_perform_of_rejects` — a message that is not accepted leaves no trace.
* `Regroup.Collector.capacity_exact_of_calls` — no more is ever buffered than may be, and a message
  is refused for its number only where it would be one too many.
-/

namespace Regroup

variable {s : Store} {key : Key} {g : Group} {m : Message} {now : Instant} {strict : Bool}

/-! ## Groups -/

namespace Group

/-- A group has a reason not to take a message: it has been released for good, they disagree on the
length of the sequence, the position lies beyond its end, or the message has come before. -/
def Declines (g : Group) (m : Message) (strict : Bool) : Prop :=
  g.completed = true ∨ g.conflictsWith m strict = true ∨ g.isOutOfRange m = true ∨
    g.isDuplicate m = true

/-- A group declines what it objects to. -/
lemma declines_iff (g : Group) (m : Message) (strict : Bool) :
    g.Declines m strict ↔ g.objection? m strict ≠ none := by
  rw [Ne, objection?_eq_none_iff, Declines]
  simp only [not_and_or, Bool.not_eq_false]

end Group

/-! ## Stores -/

namespace Store

/-- A message that makes sense meets no objection exactly if there is no group that declines it: a
new group has no objection. -/
lemma objection?_groupOf_iff (hwf : m.isWellFormed = true) (s : Store) (key : Key) (now : Instant)
    (strict : Bool) :
    (s.groupOf key now).objection? m strict = none ↔
      ∀ g, s.get? key = some g → ¬ g.Declines m strict := by
  cases hg : s.get? key with
  | none => simp [groupOf_of_absent hg, Collector.objection?_new key now hwf]
  | some g => simp [groupOf_of_get? hg, Group.declines_iff]

/-- A message evicts nothing exactly if there is no group that has to give something up for it. -/
lemma excess_groupOf_iff (s : Store) (key : Key) (now : Instant) (m : Message) :
    (s.groupOf key now).excess m = [] ↔ ∀ g, s.get? key = some g → g.excess m = [] := by
  cases hg : s.get? key with
  | some g => simp [groupOf_of_get? hg]
  | none =>
    rw [groupOf_of_absent hg]
    unfold Group.excess
    split <;> simp [Group.new, Group.beyond]

/-- A valid store buffers as many messages as its counter says. -/
lemma Valid.card_contents (hv : s.Valid) : s.contents.card = s.buffered := by
  rw [hv.counted]
  refine (map_list_sum Multiset.cardHom _).trans ?_
  rw [List.map_map]
  rfl

/-- A valid store has no room for one more message exactly if as many are buffered as may be. -/
lemma Valid.hasRoom_eq_false_iff (hv : s.Valid) {capacity : ℕ} (hcap : s.capacity = some capacity) :
    s.hasRoom = false ↔ s.contents.card = capacity := by
  have hle := hv.bounded capacity hcap
  simp only [hasRoom, hcap, hv.card_contents, decide_eq_false_iff_not]
  omega

end Store

namespace Collector

variable (c : Collector) {h : Holdings}

/-! ## Judging a message -/

/-- A message is rejected, whatever room there is: it has no key, makes no sense, or is declined by
the group of its key. -/
inductive Rejects (h : Holdings) (m : Message) : Prop where
  /-- It has no key. -/
  | keyless (unresolved : (c.keyRule.resolve h.issued m).1 = none)
  /-- Its sequence headers make no sense. -/
  | malformed (malformed : m.isWellFormed = false)
  /-- The group of its key declines it. -/
  | declined (key : Key) (g : Group) (resolved : (c.keyRule.resolve h.issued m).1 = some key)
    (stored : h.store.get? key = some g) (declines : g.Declines m c.settings.strictSize)

/-- A message is not rejected and evicts nothing, and as many messages are buffered as may be. -/
structure Overfills (h : Holdings) (m : Message) (capacity : ℕ) : Prop where
  /-- It has a key, whose group, if there is one, takes it and gives nothing up for it. -/
  fits : ∃ key, (c.keyRule.resolve h.issued m).1 = some key ∧ ∀ g, h.store.get? key = some g →
    ¬ g.Declines m c.settings.strictSize ∧ g.excess m = []
  /-- Its sequence headers make sense. -/
  wellFormed : m.isWellFormed = true
  /-- As many messages are buffered as may be. -/
  full : h.store.contents.card = capacity

/-- A message that has a key and makes sense is rejected if the group that it meets objects. -/
lemma rejects_iff (hres : (c.keyRule.resolve h.issued m).1 = some key)
    (hwf : m.isWellFormed = true) (now : Instant) :
    c.Rejects h m ↔ (h.store.groupOf key now).objection? m c.settings.strictSize ≠ none := by
  rw [Ne, h.store.objection?_groupOf_iff hwf]
  constructor
  · rintro (unresolved | malformed | ⟨key', g, resolved, stored, declines⟩) hnone
    · simp [hres] at unresolved
    · simp [hwf] at malformed
    · obtain rfl : key = key' := Option.some.inj (hres.symm.trans resolved)
      exact hnone g stored declines
  · intro hsome
    push Not at hsome
    obtain ⟨g, stored, declines⟩ := hsome
    exact .declined key g hres stored declines

/-- What is not accepted is rejected or finds no room. -/
lemma judge_ne_accepted_iff (h : Holdings) (now : Instant) (m : Message) :
    c.judge h now m ≠ .accepted ↔
      c.Rejects h m ∨ ∃ cause, c.judge h now m = .unstored cause := by
  cases hres : (c.keyRule.resolve h.issued m).1 with
  | none => simp [judge, hres, Rejects.keyless hres]
  | some key =>
    cases hwf : m.isWellFormed with
    | false => simp [judge, hres, hwf, Rejects.malformed hwf]
    | true =>
      rw [c.rejects_iff hres hwf now]
      simp only [judge, hres, hwf, if_true]
      cases (h.store.groupOf key now).objection? m c.settings.strictSize with
      | some objection => simp
      | none =>
        cases h.store.hasRoom || !((h.store.groupOf key now).excess m).isEmpty <;> simp

/-- A message finds no room exactly if it would be one too many. -/
lemma judge_eq_unstored_iff (hv : h.store.Valid) {capacity : ℕ}
    (hcap : h.store.capacity = some capacity) (now : Instant) (m : Message) (cause : StoreFailure) :
    c.judge h now m = .unstored cause ↔
      cause = .capacityExceeded capacity ∧ c.Overfills h m capacity := by
  constructor
  · intro hjudge
    cases hres : (c.keyRule.resolve h.issued m).1 with
    | none => simp [judge, hres] at hjudge
    | some key =>
      cases hwf : m.isWellFormed with
      | false => simp [judge, hres, hwf] at hjudge
      | true =>
        cases hobj : (h.store.groupOf key now).objection? m c.settings.strictSize with
        | some objection => simp [judge, hres, hwf, hobj] at hjudge
        | none =>
          simp only [judge, hres, hwf, if_true, hobj, hcap, Option.getD_some] at hjudge
          split at hjudge
          · simp at hjudge
          · rename_i hroom
            simp only [Bool.or_eq_true, not_or, Bool.not_eq_true, Bool.not_eq_false',
              List.isEmpty_iff] at hroom
            have htakes := (h.store.objection?_groupOf_iff hwf key now _).1 hobj
            have hexcess := (h.store.excess_groupOf_iff key now m).1 hroom.2
            exact ⟨(Verdict.unstored.inj hjudge).symm,
              ⟨key, hres, fun g hg => ⟨htakes g hg, hexcess g hg⟩⟩, hwf,
              (hv.hasRoom_eq_false_iff hcap).1 hroom.1⟩
  · rintro ⟨rfl, ⟨key, hres, hgroup⟩, hwf, hcard⟩
    have hobj := (h.store.objection?_groupOf_iff hwf key now _).2 fun g hg => (hgroup g hg).1
    have hexcess := (h.store.excess_groupOf_iff key now m).2 fun g hg => (hgroup g hg).2
    have hroom := (hv.hasRoom_eq_false_iff hcap).2 hcard
    simp [judge, hres, hwf, hobj, hexcess, hroom, hcap]

/-- Handing in a message answers that the store does not take it exactly if it finds no room. -/
lemma answer_handle_eq_store_iff {σ : Type} (t : Transport σ) {w : World σ}
    (hv : w.holdings.store.Valid) (now : Instant) (m : Message) (cause : StoreFailure) :
    (c.perform t w (.handle m now)).answer = .done (some (.store cause)) ↔
      c.judge w.holdings now m = .unstored cause := by
  rw [← c.verdict_handle hv, answer_handle, Answer.done.injEq]
  cases (c.handle w.holdings now m).1.verdict <;> simp [Verdict.failure?]

/-! ## Runs -/

variable {σ : Type}

/-- **A message that is not accepted leaves no trace in the store**, behind any calls of a
collector, whatever its settings are. Its policies may be any, provided or not, and may decide
otherwise at every call, as long as what processes groups only takes messages out of them
(`CustomProcessor`); and the channels may fail sends and change between the calls. It goes for a
message that is rejected and for one that the store answers to have no room for.

**Proof sketch.** Such a message was judged not to be accepted, and handing in a message either
accepts it or leaves the store as it was (`outcome_handle`): a new group neither objects to a
message nor has to evict anything for it, and where something is evicted there is room. -/
theorem store_perform_of_rejects (c : Collector) (t : Transport σ) (occasions : List (Occasion σ))
    (policies : Policies) (channels : σ) (m : Message) (now : Instant) :
    let h := c.heldAfter t occasions
    let p := c.meet t h ⟨policies, channels, .handle m now⟩
    ((c.under policies).Rejects h m ∨ ∃ cause, p.answer = .done (some (.store cause))) →
      p.world.holdings.store = h.store := by
  intro h p hrefused
  have hv : h.store.Valid := c.valid_heldAfter t occasions
  have hjudge : (c.under policies).judge h now m ≠ .accepted := by
    rw [(c.under policies).judge_ne_accepted_iff]
    refine hrefused.imp_right ?_
    rintro ⟨cause, hanswer⟩
    exact ⟨cause, ((c.under policies).answer_handle_eq_store_iff t (w := ⟨h, channels⟩) hv now m
      cause).1 hanswer⟩
  show ((c.under policies).handle h now m).1.store = h.store
  cases (c.under policies).outcome_handle hv now m with
  | refused _ _ store _ => exact store
  | accepted _ _ _ _ verdict _ _ _ =>
    rw [(c.under policies).verdict_handle hv] at verdict
    exact absurd verdict hjudge

/-- By policies that are not provided a group is ready at three messages, and keeps those without a
position. A message of a new key finds the store full, and one comes a second time when other
policies decide. -/
theorem store_perform_of_rejects_full :
    let m := fun key payload => Message.build (.bare payload)
      [.correlationId key, .sequence 1 2]
    let c := processing (Settings.default.withCapacity 1) (.correlation .refuse) .passThrough none
      false
    let own : Policies := ⟨.derived (·.correlationId), .custom fun g => 3 ≤ g.length,
      .custom ⟨fun g => (.interim g.takeNumbered.1, g.takeNumbered.2), fun g => ([], g),
        fun _ => .takeNumbered .refl, fun _ => .refl⟩⟩
    let occasions : List (Occasion (List Send)) := [⟨own, [], .handle (m "a" "one") ⟨5⟩⟩]
    let h := c.heldAfter .recording occasions
    let other := c.meet .recording h ⟨own, [], .handle (m "b" "other") ⟨6⟩⟩
    let again := c.meet .recording h ⟨c.policies, [], .handle (m "a" "one") ⟨6⟩⟩
    other.answer = .done (some (.store (.capacityExceeded 1))) ∧ other.opened.isSome = true ∧
      other.world.holdings.store = h.store ∧
      again.answer = .done none ∧ c.Rejects h (m "a" "one") ∧
      again.world.holdings.store = h.store := by
  intro m c own occasions h other again
  have hfull : other.answer = .done (some (.store (.capacityExceeded 1))) := by decide
  have hdeclined : c.Rejects h (m "a" "one") :=
    .declined "a" ⟨"a", [m "a" "one"], some 2, .start, 1, ⟨5⟩, false⟩ (by decide) (by decide)
      (.inr (.inr (.inr (by decide))))
  exact ⟨hfull, by decide,
    c.store_perform_of_rejects .recording occasions own [] (m "b" "other") ⟨6⟩ (.inr ⟨_, hfull⟩),
    by decide, hdeclined,
    c.store_perform_of_rejects .recording occasions c.policies [] (m "a" "one") ⟨6⟩
      (.inl hdeclined)⟩

/-- **The capacity is exact**, behind any calls of a collector, whatever its other settings are. Its
policies may be any, provided or not, and may decide otherwise at every call, as long as what
processes groups only takes messages out of them (`CustomProcessor`); and the channels may fail
sends and change between the calls. No more messages are ever buffered than may be, and a message is
refused for their number exactly if it is not rejected, evicts nothing and would be one too many.

**Proof sketch.** The counter of a valid store is the number of the buffered messages and does not
exceed the capacity (`Store.Valid`), so there is no room exactly if as many are buffered as may be.
What the store answers is judged before the call (`verdict_handle`). -/
theorem capacity_exact_of_calls (c : Collector) {capacity : ℕ}
    (hcap : c.settings.capacity = some capacity) (t : Transport σ)
    (occasions : List (Occasion σ)) :
    let h := c.heldAfter t occasions
    h.store.contents.card ≤ capacity ∧
      ∀ policies channels m now,
        (c.meet t h ⟨policies, channels, .handle m now⟩).answer =
            .done (some (.store (.capacityExceeded capacity))) ↔
          (c.under policies).Overfills h m capacity := by
  intro h
  have hv : h.store.Valid := c.valid_heldAfter t occasions
  have hheld : h.store.capacity = some capacity := (c.capacity_heldAfter t occasions).trans hcap
  refine ⟨hv.card_contents.trans_le (hv.bounded capacity hheld),
    fun policies channels m now => ?_⟩
  refine ((c.under policies).answer_handle_eq_store_iff t (w := ⟨h, channels⟩) hv now m _).trans ?_
  rw [(c.under policies).judge_eq_unstored_iff hv hheld]
  exact and_iff_right rfl

/-- Two messages are all that may be buffered. A third is one too many, unless it tells that the
sequence of its group is so short that another has to go for it. In between a rule that is not
provided has let a group go that holds no message with a position. -/
theorem capacity_exact_of_calls_evicting :
    let m := fun key payload edits => Message.build (.bare payload) (.correlationId key :: edits)
    let c := processing (Settings.default.withCapacity 2) (.correlation .refuse) .passThrough none
      false
    let own : Policies := ⟨.correlation .refuse, .custom fun g => !g.messages.any (·.isNumbered),
      .passThrough⟩
    let occasions : List (Occasion (List Send)) := [
      ⟨c.policies, [], .handle (m "a" "one" [.sequenceNumber 1]) ⟨5⟩⟩,
      ⟨own, [], .handle (m "b" "other" []) ⟨6⟩⟩,
      ⟨own, [], .handle (m "a" "nine" [.sequenceNumber 9]) ⟨7⟩⟩]
    let h := c.heldAfter .recording occasions
    let third := m "a" "third" [.sequenceNumber 3]
    let ending := m "a" "ending" [.sequence 2 3]
    h.store.contents.card ≤ 2 ∧ c.Overfills h third 2 ∧
      (c.meet .recording h ⟨own, [], .handle ending ⟨8⟩⟩).world.holdings.store.contents.card = 2 ∧
      ¬ (c.under own).Overfills h ending 2 := by
  intro m c own occasions h third ending
  have hcap : c.settings.capacity = some 2 := rfl
  obtain ⟨hle, hexact⟩ := c.capacity_exact_of_calls hcap .recording occasions
  refine ⟨hle, (hexact c.policies [] third ⟨8⟩).1 (by decide), by decide, fun hover => ?_⟩
  exact absurd ((hexact own [] ending ⟨8⟩).2 hover) (by decide)

end Collector

end Regroup
