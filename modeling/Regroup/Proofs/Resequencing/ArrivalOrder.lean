import Mathlib.Data.Finset.Sort
import Mathlib.Order.Interval.Finset.Nat
import Regroup.Message.Edit
import Regroup.Proofs.Collector.Outgoing
import Regroup.Proofs.Resequencing.Progress

/-!
# Arrival order and redelivery

The parts of one sequence come in in any order and any number of times. Which of them a resequencer
sends, and in which order, depends on the first delivery of each part only, whether it releases
runs or whole sequences, and whether the sequence is complete or closed before it is.

## Main definitions

* `Regroup.IsPart` — that a message is a part of a sequence.
* `Regroup.handles` — the calls that hand in messages one after the other.
* `Regroup.Collector.Fed` — what is true behind the parts that have been handed in.

## Main results

* `Regroup.Collector.Fed.concat` — handing in one more part keeps it true.
* `Regroup.Collector.sends_of_feed` — the first delivery of each part is sent, in order.
-/

namespace Regroup

open SequenceNumber

/-- The message belongs under the key, stands at one of the positions, tells the length, and has no
reply channel. -/
structure IsPart (rule : KeyRule) (key : Key) (positions : Finset ℕ) (n : SequenceNumber)
    (m : Message) : Prop where
  resolves : ∀ issued, (rule.resolve issued m).1 = some key
  number : ∃ i, m.number = some i ∧ i.toNat ∈ positions
  size_eq : m.size = some n
  reply_eq : m.reply = none

/-- The calls that hand in messages one after the other. -/
def handles (feed : List (Message × Instant)) : List Call := feed.map fun p => .handle p.1 p.2

/-- The messages that are handed in. -/
def handed (feed : List (Message × Instant)) : List Message := feed.map (·.1)

lemma handles_concat (feed : List (Message × Instant)) (m : Message) (now : Instant) :
    handles (feed ++ [(m, now)]) = handles feed ++ [.handle m now] := List.map_append

lemma handed_concat (feed : List (Message × Instant)) (m : Message) (now : Instant) :
    handed (feed ++ [(m, now)]) = handed feed ++ [m] := List.map_append

/-- What is handed in is what the calls hand in. -/
lemma mem_handles {feed : List (Message × Instant)} {m : Message} {now : Instant} :
    Call.handle m now ∈ handles feed ↔ (m, now) ∈ feed := by
  unfold handles
  rw [List.mem_map]
  constructor
  · rintro ⟨⟨m', now'⟩, hp, he⟩
    obtain ⟨rfl, rfl⟩ := Call.handle.inj he
    exact hp
  · exact fun h => ⟨_, h, rfl⟩

variable {rule : KeyRule} {key : Key} {positions : Finset ℕ} {n : SequenceNumber} {m : Message}
  {accepted : List Message}

/-- A part of a sequence with positions between one and its length is well-formed. -/
lemma IsPart.isWellFormed (h : IsPart rule key positions n m)
    (hpos : positions ⊆ Finset.Icc 1 n.toNat) : m.isWellFormed = true := by
  obtain ⟨i, hi, hmem⟩ := h.number
  obtain ⟨hone, hle⟩ := Finset.mem_Icc.1 (hpos hmem)
  rw [Message.isWellFormed_iff, hi, h.size_eq]
  refine ⟨fun i' hi' => ?_, fun s hs => ?_, fun s hs => ⟨i, rfl, ?_⟩⟩
  · obtain rfl : i = i' := Option.some.inj hi'
    exact ne_zero hone
  · obtain rfl : n = s := Option.some.inj hs
    exact ne_zero (by omega)
  · obtain rfl : n = s := Option.some.inj hs
    exact UInt32.le_iff_toNat_le.2 hle

/-- No part of a sequence that ends before the last position of all stands there. -/
lemma IsPart.number_ne_last (h : IsPart rule key positions n m)
    (hpos : positions ⊆ Finset.Icc 1 n.toNat) (hn : n ≠ last) : m.number ≠ some last := by
  obtain ⟨i, hi, hmem⟩ := h.number
  obtain ⟨-, hle⟩ := Finset.mem_Icc.1 (hpos hmem)
  rw [hi]
  intro e
  obtain rfl : i = last := Option.some.inj e
  have hlast : last.toNat = 2 ^ 32 - 1 := rfl
  have hlt := n.toNat_lt
  exact hn (UInt32.toNat_inj.1 (by omega))

/-- Messages that all tell the same length tell that length together. -/
lemma told_eq_of_forall (h : ∀ a ∈ accepted, a.size = some n) (hne : accepted ≠ []) :
    told accepted = some n := by
  obtain ⟨a, rest, rfl⟩ := List.exists_cons_of_ne_nil hne
  simp [told, h a List.mem_cons_self]

namespace Group

variable {g : Group}

/-- Among messages that all tell the same length a group objects to a repeated position only. -/
lemma Reflects.objection?_eq (h : g.Reflects accepted) (hall : ∀ a ∈ accepted, a.size = some n)
    {i : SequenceNumber} (hi : m.number = some i) (hn : m.size = some n) (hpos : i ≠ 0)
    (hle : i.toNat ≤ n.toNat) (strict : Bool) :
    g.objection? m strict =
      if ∃ a ∈ accepted, a.number = some i then some .duplicate else none := by
  have hsize : (accepted = [] ∧ g.size = none ∧ g.isEmpty = true) ∨ g.size = some n := by
    by_cases hnil : accepted = []
    · refine .inl ⟨hnil, ?_, ?_⟩
      · rw [h.size_eq, hnil, told_nil]
      · rw [isEmpty_iff, h.messages_eq, hnil, List.filter_nil]
    · exact .inr (h.size_eq.trans (told_eq_of_forall hall hnil))
  have hconflict : g.conflictsWith m strict = false := by
    unfold conflictsWith
    rcases hsize with ⟨-, hs, hempty⟩ | hs
    · simp [hs, hn, hempty]
    · simp [hs, hn]
  have hrange : g.isOutOfRange m = false := by
    unfold isOutOfRange
    rcases hsize with ⟨-, hs, -⟩ | hs
    · simp [hi, hs]
    · simpa [hi, hs, UInt32.lt_iff_toNat_lt] using hle
  have hin : isInside g.size m = true := by
    rw [isInside_iff]
    intro s hs i' hi'
    obtain rfl : i = i' := Option.some.inj (hi.symm.trans hi')
    rcases hsize with ⟨-, hs', -⟩ | hs'
    · rw [hs'] at hs
      simp at hs
    · obtain rfl : n = s := Option.some.inj (hs'.symm.trans hs)
      exact hle
  have hdup := h.isDuplicate_iff hi hpos hin
  unfold objection?
  rw [h.isOpen, hconflict, hrange]
  by_cases hex : ∃ a ∈ accepted, a.number = some i
  · simp [hdup.2 hex, hex]
  · have : g.isDuplicate m = false := by
      rw [← Bool.not_eq_true, hdup]
      exact hex
    simp [this, hex]

end Group

/-- Every part has a position. -/
lemma filter_unnumbered_of_parts (h : ∀ a ∈ accepted, IsPart rule key positions n a) :
    accepted.filter (!·.isNumbered) = [] := by
  rw [List.filter_eq_nil_iff]
  intro a ha
  obtain ⟨i, hi, -⟩ := (h a ha).number
  simp [Message.isNumbered, hi]

/-- Released parts go to the common output. -/
lemma map_release_of_parts (h : ∀ a ∈ accepted, IsPart rule key positions n a) (a k : ℕ) :
    (firstsFrom accepted a k).map Send.release =
      (firstsFrom accepted a k).map fun b => ⟨b, .output⟩ := by
  apply List.map_congr_left
  intro b hb
  obtain ⟨i, -, -, hi⟩ := mem_firstsFrom.1 hb
  rw [Send.release, (h b (firstAt_eq_some hi).1).reply_eq]

/-! ## Handing in parts -/

namespace Collector

variable {c : Collector} {r : Resequencer} {σ : Type} {t : Transport σ} {w : World σ}
  {feed : List (Message × Instant)} {now : Instant}

/-- What is true behind parts of a sequence that have been handed in: they lie in one lifetime, the
first delivery of each part has been accepted, and nothing has been sent but what was released. -/
structure Fed (c : Collector) (t : Transport σ) (key : Key) (w : World σ)
    (feed : List (Message × Instant)) : Prop where
  lifetime : c.Lifetime t key w (handles feed)
  /-- At every position the first delivery has been accepted. -/
  firstAt_eq : ∀ i, firstAt (c.history t key w (handles feed)) i = firstAt (handed feed) i
  sends_eq : c.sends t w (handles feed) = c.releases t key w (handles feed)
  /-- No other key has a group. -/
  alone : ∀ k, k ≠ key → groupIn (c.after t w (handles feed)) k = none
  capacity_eq : (c.after t w (handles feed)).holdings.store.capacity = none

/-- As many positions have been accepted as were handed in. -/
lemma Fed.covers_iff (h : c.Fed t key w feed) (k : ℕ) :
    Covers (c.history t key w (handles feed)) k ↔ Covers (handed feed) k := by
  unfold Covers
  simp only [← isSome_firstAt_iff, h.firstAt_eq]

/-! ## One part -/

section OnePart

variable (hpos : positions ⊆ Finset.Icc 1 n.toNat) (hn : n ≠ last)
  (hm : IsPart c.keyRule key positions n m)
  (haccepted : ∀ a ∈ accepted, IsPart c.keyRule key positions n a)
include hpos hm haccepted

/-- A group objects to a part only if its position has been accepted. -/
private lemma Follows.objection?_part {g : Group} (hf : c.Follows g accepted) (strict : Bool) :
    g.objection? m strict =
      if ∃ a ∈ accepted, a.number = m.number then some .duplicate else none := by
  obtain ⟨i, hi, hmem⟩ := hm.number
  obtain ⟨hone, hle⟩ := Finset.mem_Icc.1 (hpos hmem)
  rw [hf.reflects.objection?_eq (fun a ha => (haccepted a ha).size_eq) hi hm.size_eq
    (ne_zero hone) hle, hi]

/-- A part is accepted unless its position has been accepted before. -/
private lemma accepted_part (hv : w.holdings.store.Valid)
    (hcap : w.holdings.store.capacity = none)
    (hf : c.Follows (w.holdings.store.groupOf key now) accepted) :
    c.accepted key w (.handle m now) =
      if ∃ a ∈ accepted, a.number = m.number then [] else [m] := by
  have hverdict := c.verdict_handle_of_unlimited hv hcap (hm.resolves _)
    (hm.isWellFormed hpos) now
  rw [hf.objection?_part hpos hm haccepted] at hverdict
  simp only [Collector.accepted, hverdict]
  by_cases hex : ∃ a ∈ accepted, a.number = m.number
  · simp [hex]
  · simp [hex, IsFor, hm.resolves]

include hn

/-- What is to be sent for a part goes to the common output.

**Proof sketch.** What a group objects to is a repeated position, and a repeated message is
dropped. An accepted part releases parts only, and no message without a position is left. -/
private lemma target_of_mem_plan (hc : c.Resequences r) (hv : w.holdings.store.Valid)
    (hcap : w.holdings.store.capacity = none)
    (hf : c.Follows (w.holdings.store.groupOf key now) accepted) {x : Send}
    (hx : x ∈ (c.handle w.holdings now m).1.plan) : x.target = .output := by
  cases hobj : (w.holdings.store.groupOf key now).objection? m c.settings.strictSize with
  | some objection =>
    rw [c.plan_handle_of_objection (hm.resolves _) (hm.isWellFormed hpos) hobj] at hx
    rw [hf.objection?_part hpos hm haccepted] at hobj
    split at hobj
    · obtain rfl := Option.some.inj hobj
      simp [objectionPlan] at hx
    · simp at hobj
  | none =>
    have hjoined : ∀ a ∈ accepted ++ [m], IsPart c.keyRule key positions n a := by
      intro a ha
      rcases List.mem_append.1 ha with ha | ha
      · exact haccepted a ha
      · rwa [List.mem_singleton.1 ha]
    have hverdict := (c.verdict_handle_of_unlimited hv hcap (hm.resolves _)
      (hm.isWellFormed hpos) now).2 hobj
    cases c.outcome_handle hv now m with
    | refused reason verdict => exact absurd hverdict verdict
    | accepted key' resolved wellFormed welcome verdict plan =>
      obtain rfl : key = key' := Option.some.inj ((hm.resolves _).symm.trans resolved)
      obtain ⟨k, hk⟩ := receive_advances hc
        (hf.join (Group.welcomes_of_objection?_eq_none welcome) wellFormed)
        fun a ha _ => (hjoined a ha).number_ne_last hpos hn
      rw [plan, hk.plan_eq (filter_unnumbered_of_parts hjoined),
        map_release_of_parts hjoined] at hx
      obtain ⟨b, -, rfl⟩ := List.mem_map.1 hx
      rfl

end OnePart

/-! ## All parts -/

section Parts

variable (hparts : ∀ p ∈ feed, IsPart c.keyRule key positions n p.1)
include hparts

/-- All that has been handed in are parts. -/
lemma isPart_of_mem_handed : ∀ a ∈ handed feed, IsPart c.keyRule key positions n a := by
  intro a ha
  obtain ⟨p, hp, rfl⟩ := List.mem_map.1 ha
  exact hparts p hp

/-- All that has been accepted are parts. -/
lemma isPart_of_mem_history (t : Transport σ) (w : World σ) :
    ∀ a ∈ c.history t key w (handles feed), IsPart c.keyRule key positions n a := by
  intro a ha
  obtain ⟨⟨now, hmem⟩, -⟩ := c.mem_history t key ha
  exact hparts _ (mem_handles.1 hmem)

/-- The first part handed in has been accepted. -/
lemma Fed.history_ne_nil (h : c.Fed t key w feed) (hne : feed ≠ []) :
    c.history t key w (handles feed) ≠ [] := by
  obtain ⟨p, rest, rfl⟩ := List.exists_cons_of_ne_nil hne
  obtain ⟨i, hi, -⟩ := (hparts p List.mem_cons_self).number
  have hex : ∃ a ∈ handed (p :: rest), a.number = some i := ⟨p.1, by simp [handed], hi⟩
  rw [← isSome_firstAt_iff, ← h.firstAt_eq, isSome_firstAt_iff] at hex
  obtain ⟨a, ha, -⟩ := hex
  exact List.ne_nil_of_mem ha

/-- The length has been told with the first part. -/
lemma Fed.told_eq (h : c.Fed t key w feed) (hne : feed ≠ []) :
    told (c.history t key w (handles feed)) = some n :=
  told_eq_of_forall (fun a ha => (isPart_of_mem_history hparts t w a ha).size_eq)
    (h.history_ne_nil hparts hne)

/-- A group that is gone has been released up to its end. -/
lemma Fed.eq_of_gone {k : ℕ} (h : c.Fed t key w feed) (hk : c.Progress t key w (handles feed) k)
    (hne : feed ≠ []) (hgone : groupIn (c.after t w (handles feed)) key = none) :
    k = n.toNat := by
  have hnonempty := h.history_ne_nil hparts hne
  have htold := h.told_eq hparts hne
  obtain ⟨front, ⟨x, now⟩, rfl⟩ := List.eq_nil_or_concat' feed |>.resolve_left hne
  obtain ⟨s, hs, hks⟩ := hk.gone (handles front) x now (handles_concat front x now) hgone hnonempty
  obtain rfl : n = s := Option.some.inj (htold.symm.trans hs)
  exact hks

variable (hc : c.Resequences r) (hpos : positions ⊆ Finset.Icc 1 n.toNat) (hn : n ≠ last)
  (hv : w.holdings.store.Valid)
include hc hpos hn hv

/-- Parts that have been handed in have got to some position. -/
lemma Fed.exists_progress (h : c.Fed t key w feed) :
    ∃ k, c.Progress t key w (handles feed) k :=
  Collector.exists_progress hc hv h.lifetime fun _ _ ha _ =>
    (hparts _ (mem_handles.1 ha)).number_ne_last hpos hn

/-- What is true behind parts of a sequence stays true when one more is handed in, as long as one
was missing.

**Proof sketch.** The group is still there, so the lifetime goes on. The part is accepted exactly
if its position has not been delivered before, and all that is released for it is sent. -/
theorem Fed.concat (h : c.Fed t key w feed) (htakes : t.Takes .output)
    (hm : IsPart c.keyRule key positions n m) (hmissing : ¬ Covers (handed feed) n.toNat)
    (now : Instant) : c.Fed t key w (feed ++ [(m, now)]) := by
  have hv' := c.valid_after t hv (handles feed)
  obtain ⟨k, hk⟩ := h.exists_progress hparts hc hpos hn hv
  have hl : c.Lifetime t key w (handles feed ++ [.handle m now]) := by
    refine h.lifetime.concat (fun hne hgone => hmissing ((h.covers_iff _).1 ?_)) _
    rw [← h.eq_of_gone hparts hk (fun e => hne (by rw [e]; rfl)) hgone]
    exact hk.covers
  have hhist := isPart_of_mem_history hparts t w
  obtain ⟨hf, -⟩ := hk.groupOf hl now
  have hacc := accepted_part hpos hm hhist hv' h.capacity_eq hf
  have htarget := fun x => target_of_mem_plan (x := x) hpos hn hm hhist hc hv' h.capacity_eq hf
  constructor
  · rw [handles_concat]
    exact hl
  · intro i
    rw [handles_concat, handed_concat, history_concat, firstAt_append, firstAt_append,
      h.firstAt_eq, hacc]
    split
    · rename_i hex
      by_cases hi : m.number = some i
      · -- the position of a repeated part has been delivered before
        rw [hi, ← isSome_firstAt_iff, h.firstAt_eq] at hex
        obtain ⟨a, ha⟩ := Option.isSome_iff_exists.1 hex
        rw [ha]
        rfl
      · rw [show firstAt [m] i = none by simp [firstAt, hi]]
        rfl
    · rfl
  · rw [handles_concat, sends_concat, releases_concat, h.sends_eq]
    congr 1
    rw [delivered_handle, delivered_eq_of_failure_eq_none t
      (failure_deliver (fun x hx => by rw [htarget x hx]; exact htakes) _), released,
      if_pos (show c.IsFor _ key m from hm.resolves _), List.filter_eq_self.2]
    intro x hx
    simp [Send.isOutput, htarget x hx]
  · intro k' hk'
    rw [handles_concat, after_concat, groupIn_perform_of_not_isFor c t k' hv' ?_ now]
    · exact h.alone k' hk'
    · intro hfor
      exact hk' (Option.some.inj (hfor.symm.trans (hm.resolves _)))
  · rw [handles_concat, after_concat]
    exact (c.capacity_perform t _ _).trans h.capacity_eq

end Parts

/-- All of this is true behind parts that are handed in to a new collector, as long as one was
missing before each of them. -/
theorem fed_of_parts (hc : c.Resequences r) (hcap : c.settings.capacity = none)
    (htakes : t.Takes .output) (hpos : positions ⊆ Finset.Icc 1 n.toNat) (hn : n ≠ last)
    (channels : σ) (hparts : ∀ p ∈ feed, IsPart c.keyRule key positions n p.1)
    (hmissing : ∀ front p rest, feed = front ++ p :: rest → ¬ Covers (handed front) n.toNat) :
    c.Fed t key (c.start channels) feed := by
  induction feed using List.reverseRecOn with
  | nil =>
    exact ⟨lifetime_nil rfl, fun _ => rfl, rfl, fun _ _ => rfl, hcap⟩
  | append_singleton front p ih =>
    have hfront : ∀ q ∈ front, IsPart c.keyRule key positions n q.1 :=
      fun q hq => hparts q (List.mem_append_left _ hq)
    refine Fed.concat hfront hc hpos hn (Store.valid_empty _) (ih hfront ?_) htakes
      (hparts p (by simp)) (hmissing front p [] rfl) p.2
    rintro front' q rest rfl
    exact hmissing front' q (rest ++ [p]) (by simp)

/-! ## Closing the group -/

/-- Closing the group of parts sends those that have not been released. -/
private lemma close_snd_of_parts {s : Store} {g : Group} {k : ℕ} (hc : c.Resequences r)
    (hearly : c.settings.sendsEarlyResults = true) (hg : s.get? key = some g)
    (hf : c.Follows g accepted) (haccepted : ∀ a ∈ accepted, IsPart c.keyRule key positions n a)
    (hnext : g.barrier.next.toNat = k + 1) :
    (c.close s key).2 = (firstsFrom accepted (k + 1) (n.toNat - k)).map Send.release := by
  have hout : c.outOfClosed g = ⟨firstsFrom accepted (k + 1) (n.toNat - k), []⟩ := by
    rw [c.outOfClosed_of_reflects hc.processor_eq hearly hf.reflects hf.undrained,
      filter_unnumbered_of_parts haccepted, hnext]
    by_cases hne : accepted = []
    · rw [hne, firstsFrom_nil, firstsFrom_nil]
    · rw [hf.reflects.size_eq, told_eq_of_forall (fun a ha => (haccepted a ha).size_eq) hne,
        Group.limit, Nat.add_sub_add_right]
  rw [c.close_of_get? hg, hout, outgoingPlan, discardPlan, List.map_nil, ite_self, List.append_nil]

section Close

variable {k : ℕ} (hparts : ∀ p ∈ feed, IsPart c.keyRule key positions n p.1)
include hparts

/-- No position beyond the end has been got to. -/
lemma Fed.le_length (h : c.Fed t key w feed) (hk : c.Progress t key w (handles feed) k) :
    k ≤ n.toNat := by
  by_cases hne : feed = []
  · subst hne
    rw [hk.eq_zero rfl]
    exact Nat.zero_le _
  · exact hk.le_told n (h.told_eq hparts hne)

/-- Of a group that is gone everything has been released. -/
lemma Fed.rest_eq_nil (h : c.Fed t key w feed) (hk : c.Progress t key w (handles feed) k)
    (hgone : groupIn (c.after t w (handles feed)) key = none) :
    firstsFrom (c.history t key w (handles feed)) (k + 1) (n.toNat - k) = [] := by
  by_cases hne : feed = []
  · subst hne
    exact firstsFrom_nil _ _
  · rw [h.eq_of_gone hparts hk hne hgone, Nat.sub_self, firstsFrom_zero]

/-- Closing the group sends the parts that have not been released, and nothing else. -/
lemma Fed.delivered_close (h : c.Fed t key w feed) (hc : c.Resequences r)
    (hearly : c.settings.sendsEarlyResults = true) (htakes : t.Takes .output)
    (hk : c.Progress t key w (handles feed) k) :
    (c.perform t (c.after t w (handles feed)) (.close key)).delivered =
      (firstsFrom (c.history t key w (handles feed)) (k + 1) (n.toNat - k)).map
        Send.release := by
  have hhist := isPart_of_mem_history hparts t w
  have hplan : (c.close (c.after t w (handles feed)).holdings.store key).2 =
      (firstsFrom (c.history t key w (handles feed)) (k + 1) (n.toNat - k)).map
        Send.release := by
    cases hg : groupIn (c.after t w (handles feed)) key with
    | some g =>
      obtain ⟨hf, -, hnext, -⟩ := hk.stored g hg
      exact close_snd_of_parts hc hearly hg hf hhist hnext
    | none =>
      rw [h.rest_eq_nil hparts hk hg, c.close_of_absent hg, List.map_nil]
  rw [c.delivered_close t, hplan]
  apply delivered_eq_of_failure_eq_none
  apply failure_deliver
  intro x hx
  rw [map_release_of_parts hhist] at hx
  obtain ⟨b, -, rfl⟩ := List.mem_map.1 hx
  exact htakes

/-- The parts that have been released and those that have not make up the first deliveries. -/
lemma Fed.firsts_append_rest (h : c.Fed t key w feed)
    (hk : c.Progress t key w (handles feed) k) :
    firsts (c.history t key w (handles feed)) k ++
        firstsFrom (c.history t key w (handles feed)) (k + 1) (n.toNat - k) =
      firsts (handed feed) n.toNat := by
  rw [firsts, Nat.add_comm k 1, ← firstsFrom_add, Nat.add_sub_cancel' (h.le_length hparts hk)]
  exact firstsFrom_congr fun i _ _ => h.firstAt_eq _

/-- Once no part is missing the group is gone. -/
lemma Fed.groupIn_eq_none (h : c.Fed t key w feed) (hc : c.Resequences r)
    (hk : c.Progress t key w (handles feed) k) (hcov : Covers (handed feed) n.toNat) :
    groupIn (c.after t w (handles feed)) key = none := by
  by_cases hne : feed = []
  · subst hne
    exact h.lifetime.absent
  · exact hk.groupIn_eq_none hc (h.told_eq hparts hne) ((h.covers_iff _).2 hcov)

end Close

/-- Behind the parts and the closing of their group the store is empty. -/
lemma Fed.store_close (h : c.Fed t key w feed) (hv : w.holdings.store.Valid) :
    (c.after t w (handles feed ++ [.close key])).holdings.store = Store.empty none := by
  have hstore : (c.after t w (handles feed ++ [.close key])).holdings.store =
      ((c.after t w (handles feed)).holdings.store.remove key).2 := by
    rw [after_concat]
    exact c.close_fst _ _
  have hempty := ((c.valid_after t hv (handles feed)).remove key).eq_empty fun k' => ?_
  · rw [hstore, hempty, Store.capacity_remove, h.capacity_eq]
  · rw [Store.get?_remove_eq]
    split
    · rfl
    · rename_i hk'
      exact h.alone k' (Ne.symm hk')

end Collector

/-- The first messages at the taken positions, in order. -/
private lemma map_some_firsts {ms : List Message} {k : ℕ} (hpos : positions ⊆ Finset.Icc 1 k)
    (hiff : ∀ i ∈ Finset.Icc 1 k, (firstAt ms (UInt32.ofNat i)).isSome = true ↔ i ∈ positions) :
    (firsts ms k).map some =
      (positions.sort (· ≤ ·)).map fun i => firstAt ms (UInt32.ofNat i) := by
  have hset : ((List.range' 1 k).filter (· ∈ positions)).toFinset = positions := by
    ext i
    simp only [List.mem_toFinset, List.mem_filter, List.mem_range'_1, decide_eq_true_eq]
    constructor
    · exact fun h => h.2
    · intro h
      have := Finset.mem_Icc.1 (hpos h)
      exact ⟨⟨this.1, by omega⟩, h⟩
  have hlt : ((List.range' 1 k).filter (· ∈ positions)).Pairwise (· < ·) :=
    List.Pairwise.filter _ List.pairwise_lt_range'
  have hsort := (List.toFinset_sort (· ≤ ·) (hlt.imp fun h => h.ne)).2 (hlt.imp fun h => h.le)
  rw [hset] at hsort
  rw [hsort]
  unfold firsts firstsFrom
  have hmem : ∀ i ∈ List.range' 1 k, i ∈ Finset.Icc 1 k := by
    intro i hi
    rw [List.mem_range'_1] at hi
    exact Finset.mem_Icc.2 ⟨hi.1, by omega⟩
  generalize List.range' 1 k = l at hmem
  induction l with
  | nil => rfl
  | cons i l ih =>
    have ih' := ih fun j hj => hmem j (List.mem_cons_of_mem _ hj)
    have hi := hiff i (hmem i List.mem_cons_self)
    cases hfirst : firstAt ms (UInt32.ofNat i) with
    | none =>
      have hnot : i ∉ positions := by
        rw [← hi, hfirst]
        simp
      simp [hfirst, hnot, ih']
    | some a =>
      have hin : i ∈ positions := by
        rw [← hi, hfirst]
        rfl
      simp [hfirst, hin, ih']

/-- If the last part delivered was the last one missing, some part is missing behind all deliveries
but the last. -/
private lemma not_covers_of_last_missing {feed : List (Message × Instant)}
    (hpos : positions ⊆ Finset.Icc 1 n.toNat)
    (hparts : ∀ p ∈ feed, IsPart rule key positions n p.1)
    (hfinal : positions = Finset.Icc 1 n.toNat → ∀ front p, feed = front ++ [p] →
      ∀ a ∈ handed front, a.number ≠ p.1.number)
    {front rest : List (Message × Instant)} {p : Message × Instant}
    (hfeed : feed = front ++ p :: rest) : ¬ Covers (handed front) n.toNat := by
  intro hcov
  have hmem : ∀ a ∈ handed front, IsPart rule key positions n a := by
    intro a ha
    obtain ⟨q, hq, rfl⟩ := List.mem_map.1 ha
    exact hparts q (by rw [hfeed]; exact List.mem_append_left _ hq)
  have hat : ∀ i ∈ Finset.Icc 1 n.toNat, ∃ a ∈ handed front, a.number = some (UInt32.ofNat i) := by
    intro i hi
    obtain ⟨hone, hle⟩ := Finset.mem_Icc.1 hi
    obtain ⟨a, ha⟩ := hcov.exists_firstAt n.toNat_lt hone hle
    exact ⟨a, firstAt_eq_some ha⟩
  have hwhole : positions = Finset.Icc 1 n.toNat := by
    refine Finset.Subset.antisymm hpos fun i hi => ?_
    have hlt := n.toNat_lt
    have hle := (Finset.mem_Icc.1 hi).2
    obtain ⟨a, ha, han⟩ := hat i hi
    obtain ⟨j, hj, hjmem⟩ := (hmem a ha).number
    obtain rfl : UInt32.ofNat i = j := Option.some.inj (han.symm.trans hj)
    rwa [toNat_ofNat (by omega)] at hjmem
  -- the part delivered last has been delivered before
  obtain ⟨mid, q, hq⟩ := List.eq_nil_or_concat' (p :: rest) |>.resolve_left (by simp)
  rw [hq, ← List.append_assoc] at hfeed
  obtain ⟨j, hj, hjmem⟩ := (hparts q (by rw [hfeed]; simp)).number
  obtain ⟨a, ha, han⟩ := hat _ (hpos hjmem)
  rw [UInt32.ofNat_toNat, ← hj] at han
  refine hfinal hwhole (front ++ mid) q hfeed a ?_ han
  unfold handed at ha ⊢
  rw [List.map_append]
  exact List.mem_append_left _ ha

namespace Collector

variable {c : Collector} {σ : Type} {feed : List (Message × Instant)}

/-- **Arrival order and redelivery do not matter.** Parts of one sequence are handed in, in any
order and any number of times, and then their group is closed. Behind that the first delivery at
each position has been sent to the output, by ascending position, nothing else has been sent, the
channels are where these sends lead, and the store is empty. If no part was missing all of this was
so before the group was closed.

**Proof sketch.** Behind the parts the positions up to some `k` have been released
(`Fed.exists_progress`), and the group, if it is there, holds the rest, which closing it sends.
Where the group is gone `k` is the end of the sequence, and it is gone if no part is missing. What
has been accepted first at a position is what was delivered first there. -/
theorem sends_of_feed (settings : Settings) (hcap : settings.capacity = none)
    (hearly : settings.sendsEarlyResults = true) (keyRule : KeyRule) (discards : Bool)
    (hc : c = resequencing settings keyRule none discards) (t : Transport σ)
    (htakes : t.Takes .output) (channels : σ) (key : Key) (n : SequenceNumber) (hn : n ≠ last)
    (positions : Finset ℕ) (hpos : positions ⊆ Finset.Icc 1 n.toNat)
    (feed : List (Message × Instant)) (hparts : ∀ p ∈ feed, IsPart keyRule key positions n p.1)
    (hall : ∀ i ∈ positions, ∃ a ∈ handed feed, a.number = some (UInt32.ofNat i))
    (hfinal : positions = Finset.Icc 1 n.toNat → ∀ front p, feed = front ++ [p] →
      ∀ a ∈ handed front, a.number ≠ p.1.number) :
    ∃ out : List Message,
      out.map some =
        (positions.sort (· ≤ ·)).map (fun i => firstAt (handed feed) (UInt32.ofNat i)) ∧
      c.sends t (c.start channels) (handles feed ++ [.close key]) =
        out.map (fun m => ⟨m, .output⟩) ∧
      t.Leads channels (out.map fun m => ⟨m, .output⟩)
        (c.after t (c.start channels) (handles feed ++ [.close key])).channels ∧
      (c.after t (c.start channels) (handles feed ++ [.close key])).holdings.store =
        Store.empty none ∧
      (positions = Finset.Icc 1 n.toNat →
        c.sends t (c.start channels) (handles feed) = out.map (fun m => ⟨m, .output⟩) ∧
        t.Leads channels (out.map fun m => ⟨m, .output⟩)
          (c.after t (c.start channels) (handles feed)).channels ∧
        groupIn (c.after t (c.start channels) (handles feed)) key = none) := by
  have hreseq : c.Resequences ⟨settings.releasesRuns⟩ :=
    hc ▸ resequences_resequencing settings keyRule discards
  obtain ⟨hsettings, hrule⟩ : c.settings = settings ∧ c.keyRule = keyRule := by
    rw [hc]
    exact ⟨rfl, rfl⟩
  rw [← hsettings] at hcap hearly
  rw [← hrule] at hparts
  have hv : (c.start channels).holdings.store.Valid := Store.valid_empty _
  have hfed := fed_of_parts hreseq hcap htakes hpos hn channels hparts
    fun front p rest he => not_covers_of_last_missing hpos hparts hfinal he
  obtain ⟨k, hk⟩ := hfed.exists_progress hparts hreseq hpos hn hv
  have hsends := hfed.sends_eq.trans hk.releases_eq
  have hall' := hfed.firsts_append_rest hparts hk
  have hhanded := isPart_of_mem_handed hparts
  have houtput : (firsts (handed feed) n.toNat).map Send.release =
      (firsts (handed feed) n.toNat).map fun m => ⟨m, .output⟩ :=
    map_release_of_parts hhanded 1 n.toNat
  have hclosed : c.sends t (c.start channels) (handles feed ++ [.close key]) =
      (firsts (handed feed) n.toNat).map fun m => ⟨m, .output⟩ := by
    rw [sends_concat, hsends, hfed.delivered_close hparts hreseq hearly htakes hk,
      ← List.map_append, hall', houtput]
  refine ⟨firsts (handed feed) n.toNat, map_some_firsts hpos fun i hi => ?_, hclosed,
    hclosed ▸ c.leads_after t (c.start channels) _, hfed.store_close hv, fun hwhole => ?_⟩
  · rw [isSome_firstAt_iff]
    refine ⟨?_, hall i⟩
    rintro ⟨a, ha, han⟩
    obtain ⟨j, hj, hmem⟩ := (hhanded a ha).number
    have hle := (Finset.mem_Icc.1 hi).2
    have hlt := n.toNat_lt
    obtain rfl : UInt32.ofNat i = j := Option.some.inj (han.symm.trans hj)
    rwa [toNat_ofNat (by omega)] at hmem
  · have hgone := hfed.groupIn_eq_none hparts hreseq hk fun i hi hle => by
      have := hall i.toNat (by rw [hwhole]; exact Finset.mem_Icc.2 ⟨toNat_pos hi, hle⟩)
      rwa [UInt32.ofNat_toNat] at this
    rw [hfed.rest_eq_nil hparts hk hgone, List.append_nil] at hall'
    have hbefore := hsends
    rw [hall', houtput] at hbefore
    exact ⟨hbefore, hbefore ▸ c.leads_after t (c.start channels) _, hgone⟩

/-- Three parts come in out of order, one of them twice. -/
theorem sends_of_feed_redelivered :
    let m := fun payload number => Message.build (.bare payload)
      [.correlationId "a", .sequenceNumber number, .sequenceSize 3]
    let settings : Settings := { Settings.resequencing true with sendsEarlyResults := true }
    let c := resequencing settings (.correlation .refuse) none true
    let feed : List (Message × Instant) := [(m "two" 2, ⟨5⟩), (m "three" 3, ⟨6⟩),
      (m "two again" 2, ⟨7⟩), (m "one" 1, ⟨8⟩)]
    c.sends .recording (c.start []) (handles feed) =
        [m "one" 1, m "two" 2, m "three" 3].map (fun x => ⟨x, .output⟩) ∧
      ∃ out : List Message,
        out.map some = ((Finset.Icc 1 3).sort (· ≤ ·)).map
          (fun i => firstAt (handed feed) (UInt32.ofNat i)) ∧
        c.sends .recording (c.start []) (handles feed ++ [.close "a"]) =
          out.map (fun x => ⟨x, .output⟩) ∧
        Transport.recording.Leads [] (out.map fun x => ⟨x, .output⟩)
          (c.after .recording (c.start []) (handles feed ++ [.close "a"])).channels ∧
        (c.after .recording (c.start []) (handles feed ++ [.close "a"])).holdings.store =
          Store.empty none ∧
        (Finset.Icc 1 3 = Finset.Icc 1 (3 : SequenceNumber).toNat →
          c.sends .recording (c.start []) (handles feed) = out.map (fun x => ⟨x, .output⟩) ∧
          Transport.recording.Leads [] (out.map fun x => ⟨x, .output⟩)
            (c.after .recording (c.start []) (handles feed)).channels ∧
          groupIn (c.after .recording (c.start []) (handles feed)) "a" = none) := by
  intro m settings c feed
  have hsends : c.sends .recording (c.start []) (handles feed) =
      [m "one" 1, m "two" 2, m "three" 3].map (fun x => ⟨x, .output⟩) := by decide
  have hall : ∀ i ∈ Finset.Icc 1 3, ∃ a ∈ handed feed, a.number = some (UInt32.ofNat i) := by
    decide
  have hpos : Finset.Icc 1 3 ⊆ Finset.Icc 1 (3 : SequenceNumber).toNat := by decide
  have hparts : ∀ p ∈ feed, IsPart (.correlation .refuse) "a" (Finset.Icc 1 3) 3 p.1 := by
    intro p hp
    simp only [feed, List.mem_cons, List.not_mem_nil, or_false] at hp
    rcases hp with rfl | rfl | rfl | rfl
    · exact ⟨fun _ => rfl, ⟨2, rfl, by decide⟩, rfl, rfl⟩
    · exact ⟨fun _ => rfl, ⟨3, rfl, by decide⟩, rfl, rfl⟩
    · exact ⟨fun _ => rfl, ⟨2, rfl, by decide⟩, rfl, rfl⟩
    · exact ⟨fun _ => rfl, ⟨1, rfl, by decide⟩, rfl, rfl⟩
  have hfinal : Finset.Icc 1 3 = Finset.Icc 1 (3 : SequenceNumber).toNat → ∀ front p,
      feed = front ++ [p] → ∀ a ∈ handed front, a.number ≠ p.1.number := by
    intro _ front p he
    have hsplit : [(m "two" 2, ⟨5⟩), (m "three" 3, ⟨6⟩), (m "two again" 2, ⟨7⟩)] ++
        [(m "one" 1, ⟨8⟩)] = front ++ [p] := he
    obtain ⟨rfl, hp⟩ := List.append_inj' hsplit rfl
    obtain rfl := List.singleton_inj.1 hp
    decide
  have hc : c = resequencing settings (.correlation .refuse) none true := rfl
  have htakes : Transport.recording.Takes .output := Transport.takes_recording _
  exact ⟨hsends, sends_of_feed settings rfl rfl (.correlation .refuse) true hc .recording htakes []
    "a" 3 (by decide) (Finset.Icc 1 3) hpos feed hparts hall hfinal⟩

end Collector

end Regroup
