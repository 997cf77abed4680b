import Regroup.Proofs.Collector.StoredGroups
import Regroup.Proofs.Message.Equality

/-!
# Redelivery

A message that has been accepted may be handed in again. As long as its group is open, nothing comes
of that: it does not matter whether the message is still buffered, has been released, or has been
evicted because another message told a length below its position.

## Main results

* `Regroup.Group.Reflects.objection?_of_mem` — a group objects to what it has accepted, as out of
  range or as a duplicate.
* `Regroup.Collector.nodup_history` — in a lifetime no message joins twice.
* `Regroup.Collector.perform_handle_of_objection` — what comes of a message that a stored group
  drops.
* `Regroup.Collector.perform_handle_of_mem_history` — handing in an accepted message again changes
  nothing.
-/

namespace Regroup

/-! ## Groups -/

namespace Group

variable {g : Group} {accepted : List Message} {m : Message}

/-- A group that is not strict agrees on the length with what it has accepted. -/
lemma Reflects.conflictsWith_of_mem (h : g.Reflects accepted) (hm : m ∈ accepted) :
    g.conflictsWith m false = false := by
  have hagreed := h.agreed m hm
  unfold conflictsWith
  cases hg : g.size with
  | none => cases hs : m.size <;> simp
  | some known =>
    cases hs : m.size with
    | none => rfl
    | some told =>
      obtain rfl : known = told := Option.some.inj (hg.symm.trans (hagreed told hs))
      simp

/-- What a group has accepted inside its sequence is a duplicate.

**Proof sketch.** A position that has been accepted is buffered or released. A message without a
position does not leave an open group, so it is still buffered. -/
lemma Reflects.isDuplicate_of_mem (h : g.Reflects accepted) (hm : m ∈ accepted)
    (hin : isInside g.size m = true) : g.isDuplicate m = true := by
  cases hn : m.number with
  | some i =>
    have hpos := ((m.isWellFormed_iff).1 (h.wellFormed m hm)).1 i hn
    exact (h.isDuplicate_iff hn hpos hin).2 ⟨m, hm, hn⟩
  | none =>
    have hbuffered : m ∈ g.messages := by
      rw [h.messages_eq, List.mem_filter, hin, Bool.true_and, Barrier.retains_iff]
      exact ⟨hm, by simp [hn]⟩
    rw [isDuplicate, Bool.or_eq_true, List.any_eq_true]
    exact .inr ⟨m, hbuffered, m.same_self⟩

/-- A group that is not strict drops what it has accepted: as out of range, where the message lies
beyond the length told since, and else as a duplicate. -/
theorem Reflects.objection?_of_mem (h : g.Reflects accepted) (hm : m ∈ accepted) :
    g.objection? m false = some (if g.isOutOfRange m then .outOfRange else .duplicate) := by
  unfold objection?
  rw [h.isOpen, h.conflictsWith_of_mem hm]
  cases hout : g.isOutOfRange m with
  | true => simp
  | false => simp [h.isDuplicate_of_mem hm (isInside_of_isOutOfRange_eq_false hout)]

/-- A group has not accepted a message twice. -/
lemma Reflects.nodup (h : g.Reflects accepted) : accepted.Nodup := by
  have hdistinct := List.pairwise_filterMap.1 h.distinct
  refine (hdistinct.and h.unequal).imp ?_
  rintro a b ⟨hpositions, hunnumbered⟩ rfl
  cases hn : a.number with
  | some n => exact hpositions n hn n hn rfl
  | none =>
    have hsame := hunnumbered hn hn
    rw [a.same_self] at hsame
    simp at hsame

end Group

/-! ## Calls -/

namespace Collector

variable {σ : Type} {c : Collector} {t : Transport σ} {key : Key} {w : World σ} {m : Message}
  {g : Group}

/-- In a lifetime no message joins twice. -/
theorem nodup_history (hprov : c.processor.isProvided = true) (hv : w.holdings.store.Valid)
    {calls : List Call} (hl : c.Lifetime t key w calls)
    (hfit : ∀ m now, Call.handle m now ∈ calls → c.Fits m) :
    (c.history t key w calls).Nodup := by
  obtain ⟨g, hg⟩ := exists_follows hprov hv hl hfit
  exact hg.reflects.nodup

/-- A well-formed message that meets an objection of a stored group leaves everything as it is, but
for the number of keys issued, and is not sent anywhere unless it is to be discarded. -/
lemma perform_handle_of_objection {issued : UInt64}
    (hkey : c.keyRule.resolve w.holdings.issued m = (some key, issued))
    (hwf : m.isWellFormed = true) (hg : groupIn w key = some g) {objection : Objection}
    (hobj : g.objection? m c.settings.strictSize = some objection)
    (hplan : c.objectionPlan m objection = []) (now : Instant) :
    c.perform t w (.handle m now) =
      ⟨⟨⟨w.holdings.store, issued⟩, w.channels⟩, [], .done none, none⟩ := by
  have hhandle : c.handle w.holdings now m =
      (⟨.objected objection, w.holdings.store, [], none⟩, issued) := by
    simp only [handle, hkey, hwf, if_true, handleKeyed, Store.obtain_of_get? hg, hobj, hplan,
      Bool.false_eq_true, if_false]
  simp only [perform, hhandle, deliver]
  rfl

/-- **A message that has been accepted is dropped when it is handed in again while its group is
open**, behind any calls of a collector with a pure key rule that is not strict about lengths,
whatever the release rule and whichever of the processors provided it has, whatever becomes of the
sends, and whether the message is still buffered, has been released or has been evicted since. The
call is done, changes nothing and sends nothing, as long as no message of the lifetime stands at the
last position of all. That a message equals itself when it comes again is a matter of payloads: as
for all of them their equality is taken to be lawful (`Payload`).

**Proof sketch.** The open group is in step with what it has accepted (`tracks_of_lifetime`), so it
objects to the message as out of range or as a duplicate (`Group.Reflects.objection?_of_mem`).
Neither is discarded. -/
theorem perform_handle_of_mem_history (c : Collector) (hlenient : c.settings.strictSize = false)
    (hpure : c.keyRule.IsPure) (hprov : c.processor.isProvided = true) (t : Transport σ)
    (channels : σ) (before life : List Call)
    (hlast : ∀ m now, Call.handle m now ∈ life → m.number ≠ some SequenceNumber.last) (key : Key)
    (hl : c.Lifetime t key (c.after t (c.start channels) before) life) (g : Group)
    (hg : groupIn (c.after t (c.start channels) (before ++ life)) key = some g)
    (hopen : g.completed = false) (m : Message)
    (hm : m ∈ c.history t key (c.after t (c.start channels) before) life) (now : Instant) :
    c.perform t (c.after t (c.start channels) (before ++ life)) (.handle m now) =
      ⟨c.after t (c.start channels) (before ++ life), [], .done none, none⟩ := by
  obtain ⟨-, issued, hkey⟩ := c.mem_history t key hm
  have htracks : c.Tracks g (c.history t key (c.after t (c.start channels) before) life) := by
    rw [after_append] at hg
    exact tracks_of_lifetime hprov (c.valid_after_start t channels before) hl
      (fun m now hm _ => hlast m now hm) hg
  have hfollows := htracks.resolve_right fun hmark => by
    rw [hmark.completed] at hopen
    simp at hopen
  have hobj := hfollows.reflects.objection?_of_mem hm
  rw [← hlenient] at hobj
  refine perform_handle_of_objection (hpure.resolve_of_fst_eq hkey _)
    (hfollows.reflects.wellFormed m hm) hg hobj ?_ now
  split <;> rfl

/-- In a resequencer of runs the first message has been released, the third is still buffered, and
the ninth has been evicted by the fourth, which tells the length. -/
theorem perform_handle_of_mem_history_evicted :
    let m := fun payload number size => Message.build (.bare payload)
      (.correlationId "a" :: .sequenceNumber number :: size)
    let c := resequencing (.resequencing true) (.correlation .refuse) none true
    let life : List Call := [.handle (m "one" 1 []) ⟨5⟩, .handle (m "three" 3 []) ⟨6⟩,
      .handle (m "nine" 9 []) ⟨7⟩, .handle (m "four" 4 [.sequenceSize 5]) ⟨8⟩]
    let g : Group := ⟨"a", [m "three" 3 [], m "four" 4 [.sequenceSize 5]], some 5, ⟨2⟩, 3, ⟨5⟩,
      false⟩
    let w := c.after .recording (c.start []) life
    groupIn w "a" = some g ∧
      c.releases .recording "a" (c.start []) life = [.release (m "one" 1 [])] ∧
      c.evictions .recording "a" (c.start []) life = [m "nine" 9 []] ∧
      ∀ x ∈ [m "one" 1 [], m "three" 3 [], m "nine" 9 []],
        c.perform .recording w (.handle x ⟨9⟩) = ⟨w, [], .done none, none⟩ := by
  intro m c life g w
  have hl : c.Lifetime .recording "a" (c.start []) life :=
    (((((lifetime_nil (by decide)).concat (by simp) (.handle (m "one" 1 []) ⟨5⟩)).concat
      (fun _ => by decide) (.handle (m "three" 3 []) ⟨6⟩)).concat
      (fun _ => by decide) (.handle (m "nine" 9 []) ⟨7⟩)).concat
      (fun _ => by decide) (.handle (m "four" 4 [.sequenceSize 5]) ⟨8⟩))
  have hg : groupIn w "a" = some g := by decide
  have hlast : ∀ x now, Call.handle x now ∈ life → x.number ≠ some SequenceNumber.last := by
    intro x now hx
    simp only [life, List.mem_cons, Call.handle.injEq, List.not_mem_nil, or_false] at hx
    rcases hx with ⟨rfl, -⟩ | ⟨rfl, -⟩ | ⟨rfl, -⟩ | ⟨rfl, -⟩ <;> decide
  have hhistory : ∀ x ∈ [m "one" 1 [], m "three" 3 [], m "nine" 9 []],
      x ∈ c.history .recording "a" (c.start []) life := by decide
  exact ⟨hg, by decide, by decide, fun x hx =>
    perform_handle_of_mem_history c rfl ((KeyRule.isPure_iff _).2 (by decide)) rfl .recording []
      [] life hlast "a" hl g hg rfl x (hhistory x hx) ⟨9⟩⟩

end Collector

end Regroup
