import Mathlib.Data.List.Induction
import Mathlib.Order.Bounds.Defs
import Regroup.Message.Edit
import Regroup.Proofs.Group.Run

/-!
# Groups behind any changes

A group that is used by itself is changed at will. A message is put into it without asking whether
its position is taken, has been released, or lies beyond the end of the sequence, and messages are
taken out at any time. Still a release takes exactly the run that is due: one message after the
other, until a position is missing or the sequence is over.

## Main definitions

* `Regroup.Group.Change`, `Regroup.Group.changeAll` — what can be done to a group, and the group
  behind it.
* `Regroup.Group.due?` — the next message that a release takes.
* `Regroup.Group.Releases` — that taking one message after the other has come to its end.
* `Regroup.Group.TakesRun` — that a release takes exactly the run that is due.

## Main results

* `Regroup.Group.messages_changeAll_sublist` — what is buffered has been put in, in that order.
* `Regroup.Group.length_le_received_changeAll` — no more is buffered than counts as received.
* `Regroup.Group.releases_releaseRun` — a release comes to its end.
* `Regroup.Group.takesRun_of_changes` — and takes exactly the run that is due.
-/

namespace Regroup.Group

open SequenceNumber

variable {g g' left : Group} {m : Message} {ms : List Message}

/-! ## Changes -/

/-- What can be done to a group. -/
inductive Change where
  /-- Puts a message behind the others. -/
  | push (m : Message)
  /-- Takes the run that is due next. -/
  | releaseRun
  /-- Takes the numbered messages. -/
  | takeNumbered
  /-- Takes all messages. -/
  | takeAll
  /-- Drops the positions beyond a sequence length. -/
  | dropBeyond (size : SequenceNumber)
  /-- Makes the group a mark. -/
  | complete

/-- The messages that a change puts in. -/
def Change.pushed : Change → List Message
  | .push m => [m]
  | .releaseRun | .takeNumbered | .takeAll | .dropBeyond _ | .complete => []

/-- The group behind a change. -/
def change (g : Group) : Change → Group
  | .push m => g.push m
  | .releaseRun => g.releaseRun.2
  | .takeNumbered => g.takeNumbered.2
  | .takeAll => g.takeAll.2
  | .dropBeyond size => g.dropBeyond size
  | .complete => g.complete

/-- The group behind changes that are made one after the other. -/
def changeAll (g : Group) (changes : List Change) : Group := changes.foldl change g

lemma changeAll_concat (g : Group) (changes : List Change) (c : Change) :
    g.changeAll (changes ++ [c]) = (g.changeAll changes).change c := by
  simp [changeAll]

/-- A change leaves messages that were there or that it puts in, in their order. -/
lemma messages_change_sublist (g : Group) (c : Change) :
    (g.change c).messages.Sublist (g.messages ++ c.pushed) := by
  have hnothing : g.messages.Sublist (g.messages ++ []) := by simp
  cases c with
  | push m => exact .refl _
  | releaseRun => exact (left_run_sublist _ _ _ _).trans hnothing
  | takeNumbered => exact List.filter_sublist.trans hnothing
  | takeAll => exact List.nil_sublist _
  | dropBeyond size => exact List.filter_sublist.trans hnothing
  | complete => exact List.nil_sublist _

/-- What a group buffers behind changes has been put in by them, in that order. -/
theorem messages_changeAll_sublist (key : Key) (now : Instant) (changes : List Change) :
    ((new key now).changeAll changes).messages.Sublist (changes.flatMap Change.pushed) := by
  induction changes using List.reverseRecOn with
  | nil => exact .refl _
  | append_singleton changes c ih =>
    rw [changeAll_concat, List.flatMap_append]
    refine (messages_change_sublist _ c).trans ?_
    simpa using ih.append_right c.pushed

/-- A change does not let more be buffered than counts as received. -/
lemma length_le_received_change (h : g.length ≤ g.received) (c : Change) :
    (g.change c).length ≤ (g.change c).received := by
  cases c with
  | push m =>
    rw [change, length_push]
    exact Nat.succ_le_succ h
  | releaseRun => exact (left_run_sublist _ _ _ _).length_le.trans h
  | takeNumbered => exact List.filter_sublist.length_le.trans h
  | takeAll => exact Nat.zero_le _
  | dropBeyond size =>
    have hparts : g.length = _ + _ :=
      List.length_eq_length_filter_add (l := g.messages) (isWithin size)
    show (g.messages.filter (isWithin size)).length ≤
      g.received - (g.messages.filter (!isWithin size ·)).length
    omega
  | complete => exact Nat.zero_le _

/-- Behind any changes no more is buffered than counts as received. -/
theorem length_le_received_changeAll (key : Key) (now : Instant) (changes : List Change) :
    ((new key now).changeAll changes).length ≤ ((new key now).changeAll changes).received := by
  induction changes using List.reverseRecOn with
  | nil => exact le_rfl
  | append_singleton changes c ih =>
    rw [changeAll_concat]
    exact length_le_received_change ih c

/-! ## Taking one message after the other -/

/-- The message that a release takes next, which is the first at the position due, and the group
behind that. There is none when the sequence is over, or where the position is missing. -/
def due? (g : Group) : Option (Message × Group) :=
  if g.isDrained then none
  else (firstAt g.messages g.barrier.next).map fun m =>
    (m, { g with
      messages := g.messages.eraseP (·.number == some g.barrier.next)
      barrier := g.barrier.step })

/-- Taking messages from a group, one after the other, has come to its end: it has given these
messages and left that group. There is no such end where messages are taken for ever. -/
inductive Releases : Group → List Message → Group → Prop where
  /-- No message is due. -/
  | stop {g : Group} (h : g.due? = none) : Releases g [] g
  /-- The message due is taken, and then others are. -/
  | next {g g' left : Group} {m : Message} {ms : List Message} (h : g.due? = some (m, g'))
      (hrest : Releases g' ms left) : Releases g (m :: ms) left

/-- What it takes for a message to be due. -/
lemma due?_eq_some (h : g.due? = some (m, g')) :
    g.isDrained = false ∧ firstAt g.messages g.barrier.next = some m ∧
      g' = { g with
        messages := g.messages.eraseP (·.number == some g.barrier.next)
        barrier := g.barrier.step } := by
  unfold due? at h
  cases hd : g.isDrained with
  | true => simp [hd] at h
  | false =>
    rw [hd, if_neg Bool.false_ne_true, Option.map_eq_some_iff] at h
    obtain ⟨x, hx, he⟩ := h
    rw [Prod.mk.injEq] at he
    obtain ⟨rfl, rfl⟩ := he
    exact ⟨rfl, hx, rfl⟩

/-- Taking as many rounds as there are messages comes to the end.

**Proof sketch.** Induction on the rounds. A round in which a message is due leaves one message
less, so the rounds that are left are enough for those. -/
lemma releases_run (g : Group) {rounds : ℕ} (hlen : g.messages.length ≤ rounds) :
    g.Releases (run g.size rounds g.barrier g.messages).released
      { g with
        messages := (run g.size rounds g.barrier g.messages).left
        barrier := (run g.size rounds g.barrier g.messages).barrier } := by
  induction rounds generalizing g with
  | zero =>
    have hnone : g.messages = [] := List.length_eq_zero_iff.1 (by omega)
    exact .stop (by simp [due?, hnone, firstAt])
  | succ rounds ih =>
    unfold run
    cases hd : g.barrier.isPast g.size with
    | true =>
      rw [if_pos rfl]
      exact .stop (by simp [due?, isDrained, hd])
    | false =>
      rw [if_neg Bool.false_ne_true, extract_eq]
      cases hm : firstAt g.messages g.barrier.next with
      | none => exact .stop (by simp [due?, hm])
      | some m =>
        have hshorter := (perm_of_firstAt hm).length_eq
        rw [List.length_cons] at hshorter
        let rest : Group := { g with
          messages := g.messages.eraseP (·.number == some g.barrier.next)
          barrier := g.barrier.step }
        have hdue : g.due? = some (m, rest) := by simp [due?, isDrained, hd, hm, rest]
        exact .next hdue (ih rest (show (g.messages.eraseP _).length ≤ rounds by omega))

/-- A release comes to its end. -/
theorem releases_releaseRun (g : Group) : g.Releases g.releaseRun.1 g.releaseRun.2 :=
  g.releases_run le_rfl

namespace Releases

/-- At the end no message is due. -/
lemma due?_eq_none (h : g.Releases ms left) : left.due? = none := by
  induction h with
  | stop h => exact h
  | next _ _ ih => exact ih

/-- There is only one end. -/
lemma eq_of_due?_eq_none (h : g.Releases ms left) (hnone : g.due? = none) :
    ms = [] ∧ left = g := by
  cases h with
  | stop _ => exact ⟨rfl, rfl⟩
  | next h _ => simp [hnone] at h

/-- What is left are the messages that have not been taken, in their order.

**Proof sketch.** The first message at a position is also the first that is equal to it, so taking
it is erasing it from the list. -/
lemma messages_eq_diff (h : g.Releases ms left) : left.messages = g.messages.diff ms := by
  induction h with
  | stop _ => rfl
  | @next g g' left m ms h _ ih =>
    obtain ⟨-, hm, rfl⟩ := due?_eq_some h
    have herase : ∀ xs : List Message, firstAt xs g.barrier.next = some m →
        xs.eraseP (·.number == some g.barrier.next) = xs.erase m := by
      intro xs hxs
      induction xs with
      | nil => rfl
      | cons x xs ihx =>
        by_cases hx : x.number = some g.barrier.next
        · obtain rfl : x = m := by simpa [firstAt, hx] using hxs
          simp [hx]
        · have hne : x ≠ m := fun e => hx (e ▸ (firstAt_eq_some hm).2)
          have hxs' : firstAt xs g.barrier.next = some m := by simpa [firstAt, hx] using hxs
          simp [hx, hne, ihx hxs']
    rw [ih, List.diff_cons, herase _ hm]

end Releases

/-! ## The run that is taken -/

/-- A release takes the same run again only if there is none. -/
lemma releaseRun_releaseRun (g : Group) : g.releaseRun.2.releaseRun = ([], g.releaseRun.2) := by
  have hend := g.releases_releaseRun.due?_eq_none
  obtain ⟨hnone, hleft⟩ := g.releaseRun.2.releases_releaseRun.eq_of_due?_eq_none hend
  exact Prod.ext hnone hleft

/-- A stretch without gaps gives one message for each position. -/
lemma map_some_firstsFrom {a k : ℕ}
    (h : ∀ i, a ≤ i → i < a + k → (firstAt ms (UInt32.ofNat i)).isSome = true) :
    (firstsFrom ms a k).map some = (List.range' a k).map fun i => firstAt ms (UInt32.ofNat i) := by
  induction k generalizing a with
  | zero => rfl
  | succ k ih =>
    obtain ⟨m, hm⟩ := Option.isSome_iff_exists.1 (h a le_rfl (by omega))
    rw [firstsFrom_succ, List.range'_succ, List.map_append, List.map_cons, hm,
      ih fun i hi hik => h i (by omega) (by omega)]
    rfl

/-- Whether no run can go on at a position: it is missing, or lies beyond the end of the
sequence. -/
def StopsAt (g : Group) (n : SequenceNumber) : Prop :=
  (∀ m ∈ g.messages, m.number ≠ some n) ∨ ∃ s, g.size = some s ∧ s < n

/-- A release from the group takes exactly the run that is due and ends before a position. -/
structure TakesRun (g : Group) (e : SequenceNumber) : Prop where
  /-- The run ends before the first position, from the barrier on, where it cannot go on. -/
  least : IsLeast {n | g.barrier.next ≤ n ∧ g.StopsAt n} e
  /-- The release comes to its end. -/
  ends : g.Releases g.releaseRun.1 g.releaseRun.2
  /-- For each position of the run it gives the first message there, in order. -/
  taken : g.releaseRun.1.map some =
    (List.range' g.barrier.next.toNat (e.toNat - g.barrier.next.toNat)).map fun i =>
      firstAt g.messages (UInt32.ofNat i)
  /-- All other messages are left in their order, the barrier stands behind the run, and nothing
  else has changed. -/
  left : g.releaseRun.2 =
    { g with messages := g.messages.diff g.releaseRun.1, barrier := ⟨e⟩ }
  /-- A release right after it takes nothing and changes nothing. -/
  settled : g.releaseRun.2.releaseRun = ([], g.releaseRun.2)

/-- A release that gives a run takes exactly the run that is due. -/
lemma takesRun_of_isRun {k : ℕ} {r : Run} (hr : IsRun g.size g.barrier g.messages k r)
    (he : g.releaseRun = (r.released, { g with messages := r.left, barrier := r.barrier })) :
    g.TakesRun r.barrier.next := by
  have hnext := hr.next_eq
  have hlt := r.barrier.next.toNat_lt
  constructor
  · constructor
    · refine ⟨UInt32.le_iff_toNat_le.2 (by omega), ?_⟩
      rcases hr.stopped with hpast | hmissing
      · cases hs : g.size with
        | none => simp [hs, Barrier.isPast] at hpast
        | some s => exact .inr ⟨s, hs, by simpa [hs, Barrier.isPast] using hpast⟩
      · exact .inl hmissing
    · rintro n ⟨hbn, hn⟩
      rw [UInt32.le_iff_toNat_le] at hbn ⊢
      by_contra hbefore
      obtain ⟨m, hm, hmn⟩ := hr.taken n hbn (by omega)
      rcases hn with hmissing | ⟨s, hs, hsn⟩
      · exact hmissing m hm hmn
      · have hinside := hr.inside s hs (by omega)
        rw [UInt32.lt_iff_toNat_lt] at hsn
        omega
  · exact g.releases_releaseRun
  · rw [he, hr.released_eq, show r.barrier.next.toNat - g.barrier.next.toNat = k by omega]
    apply map_some_firstsFrom
    intro i hi hik
    have hi0 : (UInt32.ofNat i).toNat = i := toNat_ofNat (by omega)
    exact isSome_firstAt_iff.2 (hr.taken _ (by omega) (by omega))
  · rw [← g.releases_releaseRun.messages_eq_diff, he]
  · exact g.releaseRun_releaseRun

/-- **A release takes exactly the run that is due**, from any group that has come about by changes
at will, as long as no message is put in at the last position of all. Where the barrier stands
beyond the end of the sequence that run is empty.

**Proof sketch.** The last position is missing, so there is a first one from the barrier on that is
(`isRun_releaseRun`). -/
theorem takesRun_of_changes (key : Key) (now : Instant) (changes : List Change)
    (hlast : ∀ m ∈ changes.flatMap Change.pushed, m.number ≠ some last) :
    ∃ e, ((new key now).changeAll changes).TakesRun e := by
  have hfree : ∀ m ∈ ((new key now).changeAll changes).messages, m.number ≠ some last :=
    fun m hm => hlast m ((messages_changeAll_sublist key now changes).subset hm)
  obtain ⟨k, r, hr, he⟩ := isRun_releaseRun _ ⟨last, le_last _, hfree⟩
  exact ⟨r.barrier.next, takesRun_of_isRun hr he⟩

/-- The first two positions have been released. The third is taken twice and the fourth once, which
is the last of the sequence; the fifth is taken, but lies beyond the end. -/
theorem takesRun_of_changes_repeated :
    let m := fun payload edits => Message.build (.bare payload) edits
    let other := m "other" []
    let late := m "late" [.sequenceNumber 1]
    let three := m "three" [.sequence 3 4]
    let four := m "four" [.sequenceNumber 4]
    let five := m "five" [.sequenceNumber 5]
    let again := m "again" [.sequence 3 4]
    let changes : List Change := [.push (m "two" [.sequenceNumber 2]), .push other,
      .push (m "one" [.sequenceNumber 1]), .releaseRun, .push late, .push five, .push four,
      .push three, .push again]
    let g := (new "a" ⟨5⟩).changeAll changes
    (∀ m ∈ changes.flatMap Change.pushed, m.number ≠ some last) ∧ g.barrier.next = 3 ∧
      g.TakesRun 5 ∧ g.releaseRun.1 = [three, four] ∧
      g.releaseRun.2.messages = [other, late, five, again] := by
  intro m other late three four five again changes g
  have hlast : ∀ m ∈ changes.flatMap Change.pushed, m.number ≠ some last := by decide
  obtain ⟨e, htakes⟩ := takesRun_of_changes "a" ⟨5⟩ changes hlast
  have hnext : g.releaseRun.2.barrier = ⟨5⟩ := by decide
  have he : e = 5 := by
    rw [htakes.left] at hnext
    exact congrArg Barrier.next hnext
  subst he
  exact ⟨hlast, by decide, htakes, by decide, by decide⟩

end Regroup.Group
