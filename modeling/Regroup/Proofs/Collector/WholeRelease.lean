import Regroup.Proofs.Collector.LateArrivals
import Regroup.Proofs.Resequencing.Progress

/-!
# Whole releases leave no mark

A mark is left where a group is released for good before it has received as many messages as its
sequence has. A collector that waits for the whole sequence, or that resequences by its own rule,
never does that: a group that holds the whole sequence has received at least as many messages, and
one that has been released run by run to its end has released as many. So a group that is released
for good is gone, and the next message of its key opens a new one.

## Main definitions

* `Regroup.Collector.WaitsForWhole` — that groups are released for good only as whole sequences.
* `Regroup.Collector.AllOpen` — that no stored group is a mark.
* `Regroup.Collector.Finishes` — that a call releases the group of a key for good, or closes it.
* `Regroup.Collector.StartsAfresh` — that a message opens a group that knows nothing but it.

## Main results

* `Regroup.Collector.completed_of_receive` — what a message leaves of an open group is open.
* `Regroup.Collector.allOpen_of_calls` — no mark is left, and what is released for good is gone.
-/

namespace Regroup.Collector

open SequenceNumber

/-- Groups are released for good only as whole sequences: a group is ready once it holds its whole
sequence, or once the resequencer could release something. -/
def WaitsForWhole (c : Collector) : Prop :=
  c.releaseRule = .wholeSequence ∨ ∃ r, c.Resequences r

variable {c : Collector} {g left : Group} {m : Message} {accepted : List Message}

/-! ## One message -/

/-- Where groups are not released run by run, a ready group holds its whole sequence. -/
lemma WaitsForWhole.hasWholeSequence (hc : c.WaitsForWhole)
    (hp : c.processor.releasesRuns = false) (hready : c.releaseRule.isReady g = true) :
    g.hasWholeSequence = true := by
  rcases hc with hrule | ⟨r, hr⟩
  · rwa [hrule] at hready
  · rwa [hr.isReady_of_whole (hr.releasesRuns_eq.symm.trans hp)] at hready

/-- What a ready group leaves is open. -/
lemma completed_of_settle (hc : c.WaitsForWhole) (hprov : c.processor.isProvided = true)
    (h : c.Follows g accepted) (hfit : ∀ a ∈ accepted, c.Fits a)
    (hready : c.releaseRule.isReady g = true) (he : (c.settle g).1 = some left) :
    left.completed = false := by
  cases hp : c.processor.releasesRuns with
  | true =>
    have hfree := not_covers_last fun a ha => hfit a ha hp
    exact (follows_settle_of_runs hprov hp h hfree he).reflects.isOpen
  | false =>
    rw [settle_fst_of_unmoved hp,
      marks_of_hasWholeSequence h.reflects (hc.hasWholeSequence hp hready)] at he
    simp at he

/-- What a message leaves of an open group that it joins is open. -/
theorem completed_of_receive (hc : c.WaitsForWhole) (hprov : c.processor.isProvided = true)
    (h : c.Follows g accepted) (hw : g.Welcomes m) (hwf : m.isWellFormed = true)
    (hfit : ∀ a ∈ accepted ++ [m], c.Fits a) (he : (c.receive g m).1 = some left) :
    left.completed = false := by
  unfold receive at he
  split at he
  · rename_i hready
    exact completed_of_settle hc hprov (h.join hw hwf) hfit hready he
  · obtain rfl : g.join m = left := Option.some.inj he
    rw [Group.completed_join, hw.isOpen]

/-- A ready group that has emitted everything leaves a mark or nothing. -/
lemma settle_fst_of_isFinal (hfinal : (c.processor.process g).1.isFinal = true) :
    (c.settle g).1 = if c.marks (c.processor.process g).2
      then some (c.processor.process g).2.complete else none := by
  unfold settle
  generalize c.processor.process g = processed at hfinal ⊢
  obtain ⟨emission, left⟩ := processed
  cases emission with
  | final messages => rfl
  | interim messages => simp [Emission.isFinal] at hfinal

/-! ## One call -/

variable {σ : Type} {t : Transport σ} {key : Key} {w : World σ} {call : Call} {now : Instant}

/-- No stored group is a mark. -/
def AllOpen (w : World σ) : Prop := ∀ key g, groupIn w key = some g → g.completed = false

variable (c key) in
/-- A call is done with the group of a key: a message releases it for good, or it is closed, or it
has reached the age and expires. -/
inductive Finishes (w : World σ) : Call → Prop where
  /-- Handing in a message releases the group for good. -/
  | released {m : Message} {now : Instant} (wholly : c.ReleasesWholly key w m now) :
    Finishes w (.handle m now)
  /-- The group is closed. -/
  | closed : Finishes w (.close key)
  /-- The group has reached the age. -/
  | expired {now : Instant} {g : Group} (stored : groupIn w key = some g)
    (old : c.isExpired now g = true) : Finishes w (.expire now)

/-- Where no mark is left behind it, a call that is done with a group removes it. -/
lemma Finishes.groupIn_eq_none (h : c.Finishes key w call) (hv : w.holdings.store.Valid)
    (hopen : AllOpen (c.perform t w call).world) :
    groupIn (c.perform t w call).world key = none := by
  cases h with
  | closed => rw [groupIn_perform_close, if_pos rfl]
  | expired stored old =>
    refine (c.get?_expire _ w.holdings.store key).trans ?_
    rw [show w.holdings.store.get? key = _ from stored, Option.filter_some_neg (by simp [old])]
  | @released m now wholly =>
    have next := (c.joins_of_accepted t key hv wholly.accepted_eq).next
    rw [receive, if_pos wholly.ready, settle_fst_of_isFinal wholly.final] at next
    split at next
    · exact absurd (hopen key _ next) (by simp [Group.complete])
    · exact next

variable (c t key) in
/-- A message starts afresh: the call opens a new group, which knows nothing but this message when
it is looked at whether it is ready, and what the call leaves behind knows no other length. -/
structure StartsAfresh (w : World σ) (m : Message) (now : Instant) : Prop where
  /-- The call opens a group. -/
  opened : (c.perform t w (.handle m now)).opened = some (.new key now)
  /-- What is left behind the call is left of a group with nothing but the message, whose barrier
  stands at the first position. -/
  stored : groupIn (c.perform t w (.handle m now)).world key =
    let g : Group := ⟨key, [m], m.size, .start, 1, now, false⟩
    if c.releaseRule.isReady g then (c.settle g).1 else some g
  /-- Its length is the one that the message tells, if any. -/
  size_eq : ∀ g, groupIn (c.perform t w (.handle m now)).world key = some g → g.size = m.size

/-- Where the key has no group a message that joins one starts afresh. -/
lemma startsAfresh_of_absent (hv : w.holdings.store.Valid) (habsent : groupIn w key = none)
    (hacc : c.accepted key w (.handle m now) = [m]) : c.StartsAfresh t key w m now := by
  obtain ⟨isFor, wellFormed, -, next, -⟩ := c.joins_of_accepted t key hv hacc
  rw [Store.groupOf_of_absent habsent] at next
  refine ⟨c.opened_handle isFor wellFormed habsent now, ?_, fun g hg => ?_⟩
  · rw [next, receive, Group.join_new, apply_ite Prod.fst]
  · have hstems := stemsFrom_receive (Group.stemsFrom_new key now) (next.symm.trans hg)
    rw [hstems.size_eq, told_concat, told_nil, Option.none_or]

/-! ## Every call -/

/-- A key without a group has none as long as no message joins one. -/
lemma groupIn_after_of_history_eq_nil (hv : w.holdings.store.Valid)
    (habsent : groupIn w key = none) {calls : List Call} (hnone : c.history t key w calls = []) :
    groupIn (c.after t w calls) key = none := by
  induction calls generalizing w with
  | nil => exact habsent
  | cons call calls ih =>
    obtain ⟨hfirst, hlater⟩ := List.append_eq_nil_iff.1 hnone
    refine ih (c.valid_perform t hv call) ?_ hlater
    cases c.turn t key hv call with
    | idle same => exact same.trans habsent
    | closed _ gone => exact gone
    | joined m now _ _ _ _ _ acc => rw [hfirst] at acc; simp at acc

/-- No mark is left by any calls.

**Proof sketch.** Induction on the calls, the last one first. The last call leaves a group alone, or
removes it, or a message joins it. Then the group is in step with what it has accepted in its
lifetime, and what the message leaves of it is open (`completed_of_receive`). -/
lemma allOpen_after (hc : c.WaitsForWhole) (hprov : c.processor.isProvided = true)
    (hv : w.holdings.store.Valid) (hempty : ∀ key, groupIn w key = none) {calls : List Call}
    (hfit : ∀ m now, Call.handle m now ∈ calls → c.Fits m) : AllOpen (c.after t w calls) := by
  intro key
  induction calls using List.reverseRecOn with
  | nil =>
    intro g hg
    rw [after_nil, hempty] at hg
    simp at hg
  | append_singleton front call ih =>
    intro g hg
    rw [after_concat] at hg
    cases c.turn t key (c.valid_after t hv front) call with
    | idle same =>
      exact ih (fun m now hm => hfit m now (List.mem_append_left _ hm)) g (same.symm.trans hg)
    | closed _ gone => rw [gone] at hg; simp at hg
    | joined m now handed _ wellFormed welcome next acc =>
      obtain ⟨before, life, rfl, hl⟩ := exists_lifetime_concat (hempty key) front call
      rw [after_append] at hg welcome next acc
      have hfit' : ∀ m now, Call.handle m now ∈ life ++ [call] → c.Fits m := fun m now hm =>
        hfit m now (by rw [List.append_assoc]; exact List.mem_append_right _ hm)
      have hfits := fits_history t key (c.after t w before) hfit'
      rw [history_concat, acc] at hfits
      exact completed_of_receive hc hprov
        (follows_groupOf hprov (c.valid_after t hv before) hl
          (fun m now hm => hfit' m now (List.mem_append_left _ hm)) welcome)
        (Group.welcomes_of_objection?_eq_none welcome) wellFormed hfits (next.symm.trans hg)

/-- **Whole releases leave no mark**, behind any calls of a collector that takes a group to be ready
when its whole sequence is there, whichever of the processors provided it has, or that resequences
by its own rule, whatever the settings are and whatever becomes of the sends, as long as no message
stands at the last position of all. So a call that is done with a group removes it, and the next
message of the key that is accepted starts afresh.

**Proof sketch.** No call leaves a mark (`allOpen_after`). A group that is released for good leaves
a mark or nothing, so nothing, and the key has no group until a message opens one. -/
theorem allOpen_of_calls (c : Collector) (hc : c.WaitsForWhole)
    (hprov : c.processor.isProvided = true) (t : Transport σ) (channels : σ) (calls : List Call)
    (hlast : ∀ m now, Call.handle m now ∈ calls → m.number ≠ some last) :
    AllOpen (c.after t (c.start channels) calls) ∧
      ∀ key before call later, calls = before ++ call :: later →
        c.Finishes key (c.after t (c.start channels) before) call →
          groupIn (c.after t (c.start channels) (before ++ [call])) key = none ∧
            (c.history t key (c.after t (c.start channels) (before ++ [call])) later = [] →
              ∀ m now, c.accepted key (c.after t (c.start channels) calls) (.handle m now) = [m] →
                c.StartsAfresh t key (c.after t (c.start channels) calls) m now) := by
  have hopen : ∀ front back, calls = front ++ back → AllOpen (c.after t (c.start channels) front) :=
    fun front back he => allOpen_after hc hprov (Store.valid_empty _) (fun _ => rfl)
      fun m now hm _ => hlast m now (he ▸ List.mem_append_left _ hm)
  refine ⟨hopen calls [] (List.append_nil calls).symm, ?_⟩
  rintro key before call later rfl hfinishes
  have hv := c.valid_after_start t channels before
  have hgone : groupIn (c.after t (c.start channels) (before ++ [call])) key = none := by
    have hnext := hopen (before ++ [call]) later (by simp)
    rw [after_concat] at hnext ⊢
    exact hfinishes.groupIn_eq_none hv hnext
  refine ⟨hgone, fun hnone m now hacc => startsAfresh_of_absent ?_ ?_ hacc⟩
  · exact c.valid_after_start t channels _
  · rw [List.append_cons, after_append]
    exact groupIn_after_of_history_eq_nil (c.valid_after_start t channels _) hgone hnone

/-- A sequence of two is released together with a message without a position, where late messages
are to be discarded. A message of a longer sequence then starts afresh. -/
theorem allOpen_of_calls_releasing :
    let m := fun payload headers => Message.build (.bare payload) (.correlationId "a" :: headers)
    let c := processing (Settings.default.withDiscardsLate true) (.correlation .refuse) .passThrough
      none true
    let waiting : List Call := [.handle (m "nine" [.sequenceNumber 9]) ⟨5⟩,
      .handle (m "x" []) ⟨6⟩, .handle (m "one" [.sequence 1 2]) ⟨7⟩]
    let call : Call := .handle (m "two" [.sequence 2 2]) ⟨8⟩
    let three := m "three" [.sequence 3 4]
    let w := c.after .recording (c.start []) (waiting ++ [call])
    c.releases .recording "a" (c.start []) (waiting ++ [call]) =
        [.release (m "x" []), .release (m "one" [.sequence 1 2]),
          .release (m "two" [.sequence 2 2])] ∧
      AllOpen w ∧ groupIn w "a" = none ∧ c.StartsAfresh .recording "a" w three ⟨9⟩ ∧
      groupIn (c.perform .recording w (.handle three ⟨9⟩)).world "a" =
        some ⟨"a", [three], some 4, .start, 1, ⟨9⟩, false⟩ := by
  intro m c waiting call three w
  have hlast : ∀ x now, Call.handle x now ∈ waiting ++ [call] → x.number ≠ some last := by
    intro x now hx
    simp only [waiting, call, List.cons_append, List.nil_append, List.mem_cons, Call.handle.injEq,
      List.not_mem_nil, or_false] at hx
    rcases hx with ⟨rfl, -⟩ | ⟨rfl, -⟩ | ⟨rfl, -⟩ | ⟨rfl, -⟩ <;> decide
  obtain ⟨hopen, hdone⟩ :=
    allOpen_of_calls c (.inl rfl) rfl .recording [] (waiting ++ [call]) hlast
  obtain ⟨hgone, hafresh⟩ := hdone "a" waiting call [] rfl
    (.released ⟨by decide, by decide, by decide, by decide⟩)
  exact ⟨by decide, hopen, hgone, hafresh rfl three ⟨9⟩ (by decide), by decide⟩

end Regroup.Collector
