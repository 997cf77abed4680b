import Regroup.Proofs.Group.Changes

/-!
# What is taken from a group and what is left

The ways to take messages out of a group divide what it buffers. The numbered messages are taken in
the order of their positions, where equal positions stay in the order of arrival, and the others are
left. The messages beyond a sequence length are dropped, and no longer count as received. Where all
positions are distinct and none has been released, it does not matter for the order whether a run is
released before the numbered messages are taken.

## Main definitions

* `Regroup.Group.Sorts` — that a list is what has a position in another one, in order.

## Main results

* `Regroup.Group.sorts_takeNumbered` — the numbered messages are taken in order.
* `Regroup.Group.dropBeyond_eq` — what is dropped with the positions beyond a length.
* `Regroup.Group.Releases.takeNumbered` — a run and the numbered messages behind it are all numbered
  messages.
* `Regroup.Group.partition_of_changes` — what is true of a group that has come about at will.
-/

namespace Regroup.Group

open SequenceNumber

variable {g left : Group} {m : Message} {ms : List Message}

/-! ## Messages in order -/

/-- The second list holds the messages of the first one that have a position, in the order of the
positions. Messages at the same position stay in the order in which they are. -/
structure Sorts (ms out : List Message) : Prop where
  perm : out.Perm (ms.filter (·.number.isSome))
  ascends : out.Pairwise fun a b => ∀ i j, a.number = some i → b.number = some j → i ≤ j
  stable : ∀ n, out.filter (·.number == some n) = ms.filter (·.number == some n)

/-- Ordering leaves the messages at one position in their order.

**Proof sketch.** Those messages may stand before one another, so insertion sort keeps them as a
part of the list, and it loses none. -/
lemma filter_ordered (ms : List Message) (n : SequenceNumber) :
    (ordered ms).filter (·.number == some n) = ms.filter (·.number == some n) := by
  rw [ordered_eq_insertionSort]
  have hequal : (ms.filter (·.number == some n)).Pairwise Precedes := by
    rw [List.pairwise_iff_forall_sublist]
    intro a b hab
    have ha := List.mem_filter.1 (hab.subset List.mem_cons_self)
    have hb := List.mem_filter.1 (hab.subset (List.mem_cons_of_mem _ List.mem_cons_self))
    simp only [beq_iff_eq] at ha hb
    simp [Precedes, ha.2, hb.2]
  have hpart := (List.sublist_insertionSort hequal List.filter_sublist).filter (·.number == some n)
  rw [List.filter_filter] at hpart
  simp only [Bool.and_self] at hpart
  have hperm := (ms.perm_insertionSort Precedes).filter (·.number == some n)
  exact (hpart.eq_of_length hperm.length_eq.symm).symm

/-- The numbered messages are taken in order. -/
theorem sorts_takeNumbered (g : Group) : Sorts g.messages g.takeNumbered.1 where
  perm := by
    show (ordered (g.messages.filter (·.isNumbered))).Perm _
    rw [ordered_eq_insertionSort]
    exact List.perm_insertionSort _ _
  ascends := by
    show (ordered (g.messages.filter (·.isNumbered))).Pairwise _
    rw [ordered_eq_insertionSort]
    refine (List.pairwise_insertionSort Precedes _).imp fun hab i j hi hj => ?_
    simpa [Precedes, hi, hj] using hab
  stable n := by
    show (ordered (g.messages.filter (·.isNumbered))).filter _ = _
    rw [filter_ordered, List.filter_filter]
    apply List.filter_congr
    intro m _
    cases hm : m.number <;> simp [Message.isNumbered, hm]

/-- Where a position is taken and no message stands before it, ordering puts the first message at
it in front. -/
lemma ordered_eq_cons {n : SequenceNumber} (hm : firstAt ms n = some m)
    (hle : ∀ x ∈ ms, ∃ i, x.number = some i ∧ n ≤ i) :
    ordered ms = m :: ordered (ms.eraseP (·.number == some n)) := by
  have hn : m.number = some n := (firstAt_eq_some hm).2
  induction ms with
  | nil => simp [firstAt] at hm
  | cons x xs ih =>
    by_cases hx : x.number = some n
    · obtain rfl : x = m := by simpa [firstAt, hx] using hm
      have hfront : ∀ y ∈ xs, Precedes x y := by
        intro y hy
        obtain ⟨i, hi, hni⟩ := hle y (List.mem_cons_of_mem _ hy)
        simpa [Precedes, hx, hi] using hni
      rw [List.eraseP_cons_of_pos (by simpa using hx), ordered_eq_insertionSort,
        ordered_eq_insertionSort, List.insertionSort_cons_of_forall_rel _ hfront]
    · have hm' : firstAt xs n = some m := by simpa [firstAt, hx] using hm
      have hbehind : ¬ Precedes x m := by
        obtain ⟨i, hi, hni⟩ := hle x List.mem_cons_self
        have hne : i ≠ n := fun e => hx (e ▸ hi)
        rw [UInt32.le_iff_toNat_le] at hni
        simp only [Precedes, hi, hn, Option.getD_some, UInt32.le_iff_toNat_le]
        have : i.toNat ≠ n.toNat := fun e => hne (UInt32.toNat_inj.1 e)
        omega
      rw [List.eraseP_cons_of_neg (by simpa using hx)]
      show insertOrdered x (ordered xs) = m :: insertOrdered x _
      rw [ih hm' fun y hy => hle y (List.mem_cons_of_mem _ hy), insertOrdered]
      exact if_neg hbehind

/-! ## Dropping -/

/-- The messages beyond a length are dropped, and counted; the others stay. -/
lemma dropBeyond_eq (g : Group) (size : SequenceNumber) :
    g.dropBeyond size =
        { g with
          messages := g.messages.filter (!·.number.any (size < ·))
          received := g.received - g.droppedBeyond size } ∧
      g.droppedBeyond size = (g.messages.filter (·.number.any (size < ·))).length := by
  have hwithin : isWithin size = fun m => !m.number.any (size < ·) := by
    funext m
    unfold isWithin
    cases m.number with
    | none => rfl
    | some n => simp [← UInt32.not_lt]
  have hbeyond : g.beyond size = g.messages.filter (·.number.any (size < ·)) := by
    simp [beyond, hwithin]
  have hparts : g.messages.length = _ + _ :=
    List.length_eq_length_filter_add (l := g.messages) (isWithin size)
  have hcount : g.droppedBeyond size = (g.beyond size).length := by
    show g.messages.length - (g.messages.filter (isWithin size)).length =
      (g.messages.filter (!isWithin size ·)).length
    omega
  refine ⟨?_, by rw [hcount, hbeyond]⟩
  rw [hcount, dropBeyond, hwithin]

/-- What is dropped has been received. -/
lemma droppedBeyond_le (h : g.length ≤ g.received) (size : SequenceNumber) :
    g.droppedBeyond size ≤ g.received :=
  (Nat.sub_le _ _).trans h

/-! ## Taking a run first -/

/-- Where no position is taken twice and none has been released, a run that is released and the
numbered messages taken behind it are all numbered messages.

**Proof sketch.** Induction on the messages released. The message due stands at the barrier, and no
other stands there or before it, so it is the first in order. The others stand behind it. Where the
barrier stands at the last position of all there are no others, so it does no harm that it starts
from the front again. -/
theorem Releases.takeNumbered (h : g.Releases ms left) (hd : Distinct g.messages)
    (hpending : ∀ m ∈ g.messages, ∀ n, m.number = some n → g.barrier.next ≤ n) :
    g.takeNumbered.1 = ms ++ left.takeNumbered.1 := by
  induction h with
  | stop _ => rfl
  | @next g g' left m ms h _ ih =>
    obtain ⟨-, hm, rfl⟩ := due?_eq_some h
    have hfirst : firstAt (g.messages.filter (·.isNumbered)) g.barrier.next = some m := by
      rw [firstAt_filter fun x _ hx => by simp [Message.isNumbered, hx], hm]
    have hfilter : (g.messages.filter (·.isNumbered)).eraseP (·.number == some g.barrier.next) =
        (g.messages.eraseP (·.number == some g.barrier.next)).filter (·.isNumbered) := by
      rw [eraseP_eq_filter hd, eraseP_eq_filter (hd.sublist List.filter_sublist),
        List.filter_comm]
    have hbehind : ∀ x ∈ g.messages.eraseP (·.number == some g.barrier.next), ∀ n,
        x.number = some n → g.barrier.step.next ≤ n := by
      intro x hx n hn
      rw [eraseP_eq_filter hd, List.mem_filter, hn] at hx
      have hle := UInt32.le_iff_toNat_le.1 (hpending x hx.1 n hn)
      have hne : n.toNat ≠ g.barrier.next.toNat := fun e => by
        simp [UInt32.toNat_inj.1 e] at hx
      have hlast : g.barrier.next ≠ last := by
        intro e
        have := le_last n
        rw [← e] at this
        omega
      rw [UInt32.le_iff_toNat_le, Barrier.toNat_next_step hlast]
      omega
    have hrest := ih (hd.sublist List.eraseP_sublist) hbehind
    show ordered (g.messages.filter (·.isNumbered)) = m :: (ms ++ left.takeNumbered.1)
    rw [← hrest, ordered_eq_cons hfirst, hfilter]
    · rfl
    · intro x hx
      rw [List.mem_filter] at hx
      obtain ⟨i, hi⟩ := Option.isSome_iff_exists.1 hx.2
      exact ⟨i, hi, hpending x hx.1 i hi⟩

/-! ## Any changes -/

/-- **The ways to take messages out of a group divide what it buffers**, whatever has been done to
the group before. The numbered messages are taken in the order of their positions and, where a
position is taken more than once, of their arrival; the others are left in the order of their
arrival. With a sequence length those messages are dropped that stand beyond it, and they no longer
count as received, of which there are always enough; the others are left in order. Where no position
is taken twice and none has been released, releasing the run that is due and then taking the
numbered messages gives the same as taking these at once.

**Proof sketch.** The last part is an induction on the run (`Releases.takeNumbered`). It does not
need that all positions are inside the sequence: those beyond the end come last either way. -/
theorem partition_of_changes (key : Key) (now : Instant) (changes : List Change) :
    let g := (new key now).changeAll changes
    (Sorts g.messages g.takeNumbered.1 ∧
      g.takeNumbered.2 = { g with messages := g.messages.filter (·.number.isNone) }) ∧
    (∀ size, let isBeyond := fun m : Message => m.number.any (size < ·)
      g.dropBeyond size =
          { g with
            messages := g.messages.filter (!isBeyond ·)
            received := g.received - g.droppedBeyond size } ∧
        g.droppedBeyond size = (g.messages.filter isBeyond).length ∧
        g.droppedBeyond size ≤ g.received) ∧
    (Distinct g.messages →
      (∀ m ∈ g.messages, ∀ n, m.number = some n → g.barrier.next ≤ n) →
        g.takeNumbered.1 = g.releaseRun.1 ++ g.releaseRun.2.takeNumbered.1) := by
  intro g
  refine ⟨⟨g.sorts_takeNumbered, ?_⟩, fun size => ?_, g.releases_releaseRun.takeNumbered⟩
  · simp [Group.takeNumbered, Message.isNumbered]
  · obtain ⟨hdrop, hcount⟩ := g.dropBeyond_eq size
    exact ⟨hdrop, hcount, droppedBeyond_le (length_le_received_changeAll key now changes) size⟩

/-- The first three positions and the fifth are taken. The run that is due gives the first three,
the numbered messages behind it the fifth, and taken at once they come in the same order. -/
theorem partition_of_changes_gap :
    let m := fun payload number => Message.build (.bare payload) [.sequenceNumber number]
    let one := m "one" 1
    let two := m "two" 2
    let three := m "three" 3
    let five := m "five" 5
    let other := Message.bare "other"
    let changes : List Change := [.push three, .push other, .push one, .push five, .push two]
    let g := (new "a" ⟨5⟩).changeAll changes
    Distinct g.messages ∧ (∀ m ∈ g.messages, ∀ n, m.number = some n → g.barrier.next ≤ n) ∧
      g.releaseRun.1 = [one, two, three] ∧ g.releaseRun.2.takeNumbered.1 = [five] ∧
      g.takeNumbered.1 = [one, two, three, five] ∧ g.takeNumbered.2.messages = [other] ∧
      (g.dropBeyond 3).messages = [three, other, one, two] ∧ g.droppedBeyond 3 = 1 ∧
      (g.dropBeyond 3).received = 4 := by
  intro m one two three five other changes g
  have hdistinct : Distinct g.messages := by
    unfold Distinct
    decide
  have hnumbers : (g.messages.filterMap (·.number)).all (g.barrier.next ≤ ·) = true := by decide
  have hpending : ∀ m ∈ g.messages, ∀ n, m.number = some n → g.barrier.next ≤ n := fun m hm n hn =>
    of_decide_eq_true (List.all_eq_true.1 hnumbers n (List.mem_filterMap.2 ⟨m, hm, hn⟩))
  obtain ⟨⟨-, hleft⟩, hdrop, htaken⟩ := partition_of_changes "a" ⟨5⟩ changes
  obtain ⟨hkept, hcount, -⟩ := hdrop 3
  have hrun : g.releaseRun.1 = [one, two, three] := by decide
  have hrest : g.releaseRun.2.takeNumbered.1 = [five] := by decide
  have hwhole := htaken hdistinct hpending
  rw [hrun, hrest] at hwhole
  exact ⟨hdistinct, hpending, hrun, hrest, hwhole, (congrArg (·.messages) hleft).trans (by decide),
    (congrArg (·.messages) hkept).trans (by decide), hcount.trans (by decide),
    (congrArg (·.received) hkept).trans (by decide)⟩

end Regroup.Group
