import Regroup.Group.Objection
import Regroup.Proofs.Group.Run

/-!
# Groups and the messages that they have accepted

An open group is determined by the messages that it has accepted and by how far it has been
released. It buffers those that the barrier has not gone past and that do not lie beyond the end of
the sequence, in the order of their arrival, and its length is the first that any of them told.

## Main definitions

* `Regroup.told` — the sequence length that a list of messages tells.
* `Regroup.Group.limit` — how far a sequence can reach.
* `Regroup.Group.excess`, `Regroup.Group.join` — what a message that joins evicts, and the group
  that it has joined.
* `Regroup.Group.Welcomes` — that a group has no objection to a message.
* `Regroup.Group.Reflects` — that a group is what the messages that it has accepted make of it.

## Main results

* `Regroup.Group.Reflects.join`, `Regroup.Group.Reflects.releaseRun` — joining and releasing keep
  a group in step with what it has accepted.
* `Regroup.Group.Reflects.takeNumbered` — taking the numbered messages takes a stretch of what has
  been accepted.
-/

namespace Regroup

open SequenceNumber

/-- The sequence length that a list of messages tells, the first told being the one that counts. -/
def told (ms : List Message) : Option SequenceNumber := ms.findSome? (·.size)

@[simp] lemma told_nil : told [] = none := rfl

/-- A later message tells the length only if no earlier one did. -/
lemma told_concat (ms : List Message) (m : Message) : told (ms ++ [m]) = (told ms).or m.size := by
  unfold told
  rw [List.findSome?_append]
  congr 1
  cases h : m.size <;> simp [h]

namespace Group

variable {g : Group} {m : Message} {strict : Bool} {accepted : List Message}

/-! ## Within the sequence -/

/-- Whether the message has no position beyond the end of a sequence, whose length may be
unknown. -/
def isInside (size : Option SequenceNumber) (m : Message) : Bool := size.all (isWithin · m)

@[simp] lemma isInside_none (m : Message) : isInside none m = true := rfl

@[simp] lemma isInside_some (s : SequenceNumber) (m : Message) :
    isInside (some s) m = isWithin s m := rfl

/-- A message is inside a sequence if its position does not exceed the length. -/
lemma isInside_iff (size : Option SequenceNumber) (m : Message) :
    isInside size m = true ↔
      ∀ s, size = some s → ∀ n, m.number = some n → n.toNat ≤ s.toNat := by
  cases size with
  | none => simp
  | some s =>
    rw [isInside_some]
    unfold isWithin
    cases m.number <;> simp [UInt32.le_iff_toNat_le]

/-- Whether a message is inside a sequence is a matter of its position. -/
lemma isInside_congr {size : Option SequenceNumber} {a b : Message} (h : a.number = b.number) :
    isInside size a = isInside size b := by
  cases size with
  | none => rfl
  | some s =>
    rw [isInside_some, isInside_some]
    unfold isWithin
    rw [h]

/-- Whether a barrier has gone past a message is a matter of its position. -/
lemma retains_congr {barrier : Barrier} {a b : Message} (h : a.number = b.number) :
    barrier.retains a = barrier.retains b := by
  unfold Barrier.retains
  rw [h]

/-- The number behind the last position that a sequence can have, whose length may be unknown. -/
def limit : Option SequenceNumber → ℕ
  | some size => size.toNat + 1
  | none => 2 ^ 32

/-- Every position below the limit can be told. -/
lemma limit_le (size : Option SequenceNumber) : limit size ≤ 2 ^ 32 := by
  cases size with
  | none => exact le_rfl
  | some s => exact s.toNat_lt

/-- The barrier of a group that is not drained has not gone past the limit. -/
lemma next_le_limit (hd : g.isDrained = false) : g.barrier.next.toNat ≤ limit g.size := by
  have hlt := g.barrier.next.toNat_lt
  cases hs : g.size with
  | none => exact hlt.le
  | some s =>
    simp only [isDrained, hs, Barrier.isPast, decide_eq_false_iff_not, UInt32.lt_iff_toNat_lt] at hd
    show g.barrier.next.toNat ≤ s.toNat + 1
    omega

/-- A position inside a sequence lies below the limit. -/
lemma lt_limit {size : Option SequenceNumber} (h : isInside size m = true) {n : SequenceNumber}
    (hn : m.number = some n) : n.toNat < limit size := by
  cases size with
  | none => exact n.toNat_lt
  | some s => exact Nat.lt_succ_of_le ((isInside_iff _ _).1 h s rfl n hn)

/-! ## Joining -/

/-- The buffered messages beyond the sequence length that a message is the first to tell. -/
def excess (g : Group) (m : Message) : List Message :=
  match g.size, m.size with
  | none, some size => g.beyond size
  | _, _ => []

/-- The group without the messages beyond the sequence length that a message is the first to
tell. -/
def dropExcess (g : Group) (m : Message) : Group :=
  match g.size, m.size with
  | none, some size => g.dropBeyond size
  | _, _ => g

/-- The group that a message has joined. -/
def join (g : Group) (m : Message) : Group := (g.dropExcess m).push m

/-- Evicting changes the buffered messages and their count only. -/
lemma dropExcess_eq (g : Group) (m : Message) :
    g.dropExcess m =
      { g with messages := (g.dropExcess m).messages, received := (g.dropExcess m).received } := by
  unfold dropExcess
  split <;> rfl

@[simp] lemma size_dropExcess (g : Group) (m : Message) : (g.dropExcess m).size = g.size := by
  rw [dropExcess_eq]

@[simp] lemma size_join (g : Group) (m : Message) : (g.join m).size = g.size.or m.size := by
  rw [join, push, size_dropExcess]

@[simp] lemma barrier_join (g : Group) (m : Message) : (g.join m).barrier = g.barrier := by
  rw [join, push, dropExcess_eq]

@[simp] lemma key_join (g : Group) (m : Message) : (g.join m).key = g.key := by
  rw [join, push, dropExcess_eq]

@[simp] lemma key_dropExcess (g : Group) (m : Message) : (g.dropExcess m).key = g.key := by
  rw [dropExcess_eq]

@[simp] lemma completed_join (g : Group) (m : Message) : (g.join m).completed = g.completed := by
  rw [join, push, dropExcess_eq]

@[simp] lemma messages_join (g : Group) (m : Message) :
    (g.join m).messages = (g.dropExcess m).messages ++ [m] := rfl

/-- What is kept when messages are evicted stays in order. -/
lemma dropExcess_sublist (g : Group) (m : Message) :
    (g.dropExcess m).messages.Sublist g.messages := by
  unfold dropExcess
  split
  · exact List.filter_sublist
  · exact .refl _

/-- What is evicted and what is kept make up what was buffered. -/
lemma length_dropExcess_add (g : Group) (m : Message) :
    (g.dropExcess m).length + (g.excess m).length = g.length := by
  unfold dropExcess excess
  split
  · exact (List.length_eq_length_filter_add _).symm
  · rfl

/-- What is evicted no longer counts as received. -/
lemma received_dropExcess_add (h : (g.excess m).length ≤ g.received) :
    (g.dropExcess m).received + (g.excess m).length = g.received := by
  unfold excess at h
  unfold dropExcess excess
  split
  · rename_i size hg hm
    rw [hg, hm] at h
    exact Nat.sub_add_cancel h
  · rfl

/-- Where nothing is evicted the group stays as it is. -/
lemma dropExcess_of_excess_eq_nil (h : g.excess m = []) : g.dropExcess m = g := by
  unfold dropExcess
  unfold excess at h
  split
  · rename_i size hg hm
    rw [hg, hm] at h
    have hall : g.messages.filter (isWithin size) = g.messages := by
      rw [List.filter_eq_self]
      intro x hx
      by_contra hn
      have : x ∈ g.beyond size := List.mem_filter.2 ⟨hx, by simpa using hn⟩
      simp only at h
      rw [h] at this
      simp at this
    simp only at h
    simp [dropBeyond, hall, h]
  · rfl

/-- A new group that a message joins knows nothing but the message. -/
lemma join_new (key : Key) (now : Instant) (m : Message) :
    (new key now).join m = ⟨key, [m], m.size, .start, 1, now, false⟩ := by
  rw [join, dropExcess_of_excess_eq_nil]
  · rfl
  · unfold excess
    split <;> rfl

/-! ## No objection -/

/-- A group takes a message: it is open, they agree on the length, and the position is inside the
sequence, not released, and free. -/
structure Welcomes (g : Group) (m : Message) : Prop where
  isOpen : g.completed = false
  agrees : ∀ s s', g.size = some s → m.size = some s' → s' = s
  inside : isInside g.size m = true
  pending : g.barrier.retains m = true
  vacant : ∀ n, m.number = some n → ∀ a ∈ g.messages, a.number ≠ some n
  unlike : ∀ a ∈ g.messages, a.same m = false

/-- Equal messages have the same position. -/
lemma number_eq_of_same {a b : Message} (h : a.same b = true) : a.number = b.number := by
  simp only [Message.same, Headers.same, Bool.and_eq_true, beq_iff_eq] at h
  exact h.2.1.1.2

/-- A message is inside the sequence unless it is out of range. -/
lemma isInside_of_isOutOfRange_eq_false (h : g.isOutOfRange m = false) :
    isInside g.size m = true := by
  rw [isInside_iff]
  intro s hs n hn
  simpa [isOutOfRange, hs, hn, UInt32.lt_iff_toNat_lt] using h

/-- A group without an objection takes the message. -/
lemma welcomes_of_objection?_eq_none (h : g.objection? m strict = none) : g.Welcomes m := by
  obtain ⟨hopen, hconf, hrange, hdup⟩ := (g.objection?_eq_none_iff m strict).1 h
  simp only [isDuplicate, Bool.or_eq_false_iff] at hdup
  constructor
  · exact hopen
  · intro s s' hs hs'
    simp only [conflictsWith, hs, hs', ne_eq, decide_eq_false_iff_not, not_not] at hconf
    exact hconf.symm
  · exact isInside_of_isOutOfRange_eq_false hrange
  · rw [Barrier.retains_iff]
    intro n hn
    simp only [hn, Bool.or_eq_false_iff] at hdup
    simpa [Barrier.isReleased, UInt32.lt_iff_toNat_lt] using hdup.1.1
  · intro n hn a ha han
    simp only [hn, Bool.or_eq_false_iff] at hdup
    exact Bool.eq_false_iff.1 hdup.1.2 ((g.holds_iff n).2 ⟨a, ha, han⟩)
  · intro a ha
    simpa using List.any_eq_false.1 hdup.2 a ha

/-! ## In step with what has been accepted -/

/-- A group is what the messages that it has accepted, in the order of their arrival, make of it
together with its barrier. -/
structure Reflects (g : Group) (accepted : List Message) : Prop where
  /-- The group is open. -/
  isOpen : g.completed = false
  /-- The length is the first one told. -/
  size_eq : g.size = told accepted
  /-- What is neither beyond the end nor released is buffered. -/
  messages_eq : g.messages = accepted.filter fun m => isInside g.size m && g.barrier.retains m
  /-- The sequence headers make sense. -/
  wellFormed : ∀ m ∈ accepted, m.isWellFormed = true
  /-- All that tell a length tell the same. -/
  agreed : ∀ m ∈ accepted, ∀ s, m.size = some s → g.size = some s
  /-- No position has been accepted twice. -/
  distinct : Distinct accepted
  /-- No two messages without a position are equal. -/
  unequal : accepted.Pairwise fun a b => a.number = none → b.number = none → a.same b = false
  /-- The barrier has gone past at least what is before the first position. -/
  next_pos : 0 < g.barrier.next.toNat
  /-- What the barrier has gone past has been accepted. -/
  covers : Covers accepted (g.barrier.next.toNat - 1)
  /-- The count is that of the buffered and the released messages. -/
  received_eq : g.received = g.length + (g.barrier.next.toNat - 1)

/-- A group before its first message has accepted nothing. -/
lemma reflects_new (key : Key) (now : Instant) : (new key now).Reflects [] where
  isOpen := rfl
  size_eq := rfl
  messages_eq := rfl
  wellFormed := by simp
  agreed := by simp
  distinct := List.nodup_nil
  unequal := List.Pairwise.nil
  next_pos := Nat.one_pos
  covers n hn hle := by
    have hpos := toNat_pos hn
    have : (new key now).barrier.next.toNat - 1 = 0 := rfl
    omega
  received_eq := rfl

namespace Reflects

/-- What is buffered has been accepted. -/
lemma mem_accepted (h : g.Reflects accepted) {a : Message} (ha : a ∈ g.messages) :
    a ∈ accepted := by
  rw [h.messages_eq] at ha
  exact List.mem_of_mem_filter ha

/-- A message without an objection is at a position that has never been accepted.

**Proof sketch.** An accepted message is buffered unless it has been released or lies beyond the
end. The message itself is neither, so an accepted one at its position would be buffered. -/
lemma vacant (h : g.Reflects accepted) (hw : g.Welcomes m) :
    ∀ n, m.number = some n → ∀ a ∈ accepted, a.number ≠ some n := by
  intro n hn a ha han
  have hnum : a.number = m.number := han.trans hn.symm
  refine hw.vacant n hn a ?_ han
  rw [h.messages_eq, List.mem_filter, isInside_congr hnum, retains_congr hnum, hw.inside,
    hw.pending]
  exact ⟨ha, rfl⟩

/-- The messages without a position are all buffered. -/
lemma filter_unnumbered (h : g.Reflects accepted) :
    g.messages.filter (!·.isNumbered) = accepted.filter (!·.isNumbered) := by
  rw [h.messages_eq, List.filter_filter]
  apply List.filter_congr
  intro m _
  cases hn : m.number <;> simp [Message.isNumbered, isInside_iff, Barrier.retains_iff, hn]

/-- Once the whole sequence has been released the messages without a position are left. -/
lemma messages_of_released {s : SequenceNumber} (h : g.Reflects accepted) (hs : g.size = some s)
    (hnext : s.toNat < g.barrier.next.toNat) :
    g.messages = accepted.filter (!·.isNumbered) := by
  rw [← h.filter_unnumbered, eq_comm, List.filter_eq_self]
  intro m hm
  rw [h.messages_eq, List.mem_filter, Bool.and_eq_true, isInside_iff, Barrier.retains_iff] at hm
  cases hn : m.number with
  | none => simp [Message.isNumbered, hn]
  | some n =>
    have hin := hm.2.1 s hs n hn
    have hret := hm.2.2 n hn
    omega

/-- A position inside the sequence is a duplicate exactly if it has been accepted.

**Proof sketch.** A position that has been accepted is buffered or has been released, and an equal
message would stand at the same position. -/
lemma isDuplicate_iff (h : g.Reflects accepted) {i : SequenceNumber} (hi : m.number = some i)
    (hpos : i ≠ 0) (hin : isInside g.size m = true) :
    g.isDuplicate m = true ↔ ∃ a ∈ accepted, a.number = some i := by
  unfold isDuplicate
  rw [hi, Bool.or_eq_true, Bool.or_eq_true]
  constructor
  · rintro ((hreleased | hholds) | hsame)
    · apply h.covers i hpos
      simp only [Barrier.isReleased, decide_eq_true_eq, UInt32.lt_iff_toNat_lt] at hreleased
      omega
    · obtain ⟨a, ha, han⟩ := (g.holds_iff i).1 hholds
      exact ⟨a, h.mem_accepted ha, han⟩
    · obtain ⟨a, ha, hsame⟩ := List.any_eq_true.1 hsame
      exact ⟨a, h.mem_accepted ha, (number_eq_of_same hsame).trans hi⟩
  · rintro ⟨a, ha, han⟩
    refine .inl ?_
    by_cases hret : g.barrier.retains a = true
    · refine .inr ((g.holds_iff i).2 ⟨a, ?_, han⟩)
      rw [h.messages_eq, List.mem_filter, hret, isInside_congr (han.trans hi.symm), hin]
      exact ⟨ha, rfl⟩
    · refine .inl ?_
      simpa [Barrier.retains, han] using hret

/-- What is buffered once the excess is gone. -/
private lemma messages_dropExcess (h : g.Reflects accepted) (m : Message) :
    (g.dropExcess m).messages =
      accepted.filter fun a => isInside (g.size.or m.size) a && g.barrier.retains a := by
  have hm := h.messages_eq
  unfold dropExcess
  cases hg : g.size with
  | some s => simpa [hg] using hm
  | none =>
    cases hs : m.size with
    | none => simpa [hg] using hm
    | some s =>
      simp only [hg, isInside_none, Bool.true_and] at hm
      simp [dropBeyond, hm, List.filter_filter]

/-- A message with a length has a position that does not exceed it. -/
private lemma exists_number {s : SequenceNumber} (hwf : m.isWellFormed = true)
    (hs : m.size = some s) : ∃ n, m.number = some n ∧ n.toNat ≤ s.toNat := by
  obtain ⟨n, hn, hle⟩ := ((m.isWellFormed_iff).1 hwf).2.2 s hs
  exact ⟨n, hn, UInt32.le_iff_toNat_le.1 hle⟩

/-- A message that joins is inside the sequence as it is known then. -/
lemma inside_join (hw : g.Welcomes m) (hwf : m.isWellFormed = true) :
    isInside (g.size.or m.size) m = true := by
  cases hg : g.size with
  | some s => simpa [hg] using hw.inside
  | none =>
    cases hs : m.size with
    | none => simp
    | some s =>
      obtain ⟨n, hn, hle⟩ := exists_number hwf hs
      rw [Option.none_or, isInside_iff]
      intro s' hs' n' hn'
      rw [hn] at hn'
      cases hs'
      cases hn'
      exact hle

/-- A group that a message joins is in step with what it has accepted then. -/
theorem join (h : g.Reflects accepted) (hw : g.Welcomes m) (hwf : m.isWellFormed = true) :
    (g.join m).Reflects (accepted ++ [m]) := by
  have hkept := h.messages_dropExcess m
  constructor
  · rw [completed_join, hw.isOpen]
  · rw [size_join, h.size_eq, told_concat]
  · rw [messages_join, size_join, barrier_join, hkept, List.filter_append]
    simp [inside_join hw hwf, hw.pending]
  · intro a ha
    rcases List.mem_append.1 ha with ha | ha
    · exact h.wellFormed a ha
    · rwa [List.mem_singleton.1 ha]
  · intro a ha s hs
    rw [size_join]
    rcases List.mem_append.1 ha with ha | ha
    · rw [h.agreed a ha s hs, Option.some_or]
    · rw [List.mem_singleton.1 ha] at hs
      cases hg : g.size with
      | none => simpa using hs
      | some s' => rw [hw.agrees s' s hg hs, Option.some_or]
  · exact h.distinct.concat (h.vacant hw)
  · rw [List.pairwise_append]
    refine ⟨h.unequal, List.pairwise_singleton _ _, ?_⟩
    intro a ha b hb hna hnb
    rw [List.mem_singleton] at hb
    subst hb
    apply hw.unlike
    rw [h.messages_eq, List.mem_filter]
    simp [ha, isInside_iff, Barrier.retains_iff, hna]
  · rw [barrier_join]
    exact h.next_pos
  · rw [barrier_join]
    exact h.covers.append [m]
  · have hlen := length_dropExcess_add g m
    have hreceived := h.received_eq
    have hrec := received_dropExcess_add (g := g) (m := m) (by omega)
    rw [barrier_join, Group.join, length_push]
    show (g.dropExcess m).received + 1 = _
    omega

/-- What lies beyond the end of the sequence once a message has joined is what did before and what
the message evicts.

**Proof sketch.** Only a message that is the first to tell the length moves the end. What it finds
beyond the end has not been released, because its own position has not, so all of it is buffered
and evicted. -/
lemma filter_outside_join (h : g.Reflects accepted) (hw : g.Welcomes m)
    (hwf : m.isWellFormed = true) :
    (accepted ++ [m]).filter (!isInside (g.size.or m.size) ·) =
      accepted.filter (!isInside g.size ·) ++ g.excess m := by
  have hm := inside_join hw hwf
  rw [List.filter_append, List.filter_singleton, hm, Bool.not_true, Bool.cond_false,
    List.append_nil]
  unfold excess
  cases hg : g.size with
  | some s => simp
  | none =>
    cases hs : m.size with
    | none => simp
    | some s =>
      obtain ⟨n, hn, hle⟩ := exists_number hwf hs
      have hpending := (Barrier.retains_iff _ _).1 hw.pending n hn
      show _ = _ ++ g.messages.filter (!isWithin s ·)
      rw [h.messages_eq, hg, List.filter_filter]
      simp only [Option.none_or, isInside_none, isInside_some, Bool.not_true, Bool.true_and,
        List.filter_false, List.nil_append]
      apply List.filter_congr
      intro a _
      cases ha : isWithin s a with
      | true => rfl
      | false =>
        have hret : g.barrier.retains a = true := by
          rw [Barrier.retains_iff]
          intro n' hn'
          simp only [isWithin, hn', decide_eq_false_iff_not, UInt32.le_iff_toNat_le] at ha
          omega
        rw [hret]
        rfl

/-- A group is not drained by a message that joins.

**Proof sketch.** A message can tell the length only by a position of its own, which has not been
released and does not exceed the length. -/
lemma isDrained_join (hd : g.isDrained = false) (hw : g.Welcomes m)
    (hwf : m.isWellFormed = true) : (g.join m).isDrained = false := by
  unfold isDrained at hd ⊢
  rw [barrier_join, size_join]
  cases hg : g.size with
  | some s => rwa [hg] at hd
  | none =>
    cases hs : m.size with
    | none => rfl
    | some s =>
      obtain ⟨n, hn, hle⟩ := exists_number hwf hs
      have hp := (g.barrier.retains_iff m).1 hw.pending n hn
      simp only [Option.none_or, Barrier.isPast, decide_eq_false_iff_not, UInt32.lt_iff_toNat_lt]
      omega

/-- The accepted messages at a stretch that is neither released nor beyond the end are buffered. -/
lemma firstsFrom_messages (h : g.Reflects accepted) {a k : ℕ} (hbound : a + k ≤ 2 ^ 32)
    (hnext : g.barrier.next.toNat ≤ a)
    (hinside : ∀ s, g.size = some s → k ≠ 0 → a + k ≤ s.toNat + 1) :
    firstsFrom g.messages a k = firstsFrom accepted a k := by
  apply firstsFrom_congr
  intro i hi hik
  rw [h.messages_eq]
  apply firstAt_filter
  intro m _ hm
  have h0 : (UInt32.ofNat i).toNat = i := toNat_ofNat (by omega)
  rw [Bool.and_eq_true, isInside_iff, Barrier.retains_iff]
  constructor
  · intro s hs n hn
    rw [hm, Option.some.injEq] at hn
    have := hinside s hs (by omega)
    rw [← hn, h0]
    omega
  · intro n hn
    rw [hm, Option.some.injEq] at hn
    rw [← hn, h0]
    omega

/-- As long as some position has not been taken, there is one from the barrier on. -/
lemma exists_missing (h : g.Reflects accepted) (hfree : ¬ Covers accepted last.toNat) :
    ∃ n : SequenceNumber, g.barrier.next.toNat ≤ n.toNat ∧ ∀ m ∈ g.messages, m.number ≠ some n :=
  (exists_missing_of_covers h.covers hfree).imp fun _ hn =>
    ⟨hn.1, fun m hm => hn.2 m (h.mem_accepted hm)⟩

/-- Releasing the run that is due next keeps a group in step with what it has accepted, and gives
the accepted messages at the positions that the barrier moves past, as long as some position has not
been taken. -/
theorem releaseRun (h : g.Reflects accepted) (hd : g.isDrained = false)
    (hfree : ¬ Covers accepted last.toNat) :
    ∃ k, g.releaseRun.1 = firstsFrom accepted g.barrier.next.toNat k ∧
      g.releaseRun.2.barrier.next.toNat = g.barrier.next.toNat + k ∧
      g.releaseRun.2.Reflects accepted ∧
      (g.releaseRun.2.isDrained = true →
        ∃ s, g.size = some s ∧ g.releaseRun.2.barrier.next.toNat = s.toNat + 1) ∧
      (g.releaseRun.2.isDrained = false →
        ∀ m ∈ g.messages, m.number ≠ some g.releaseRun.2.barrier.next) := by
  obtain ⟨k, r, hr, he⟩ := g.isRun_releaseRun (h.exists_missing hfree)
  have hnext := hr.next_eq
  have hlt := r.barrier.next.toNat_lt
  have hpos := h.next_pos
  have hdist : Distinct g.messages := by
    rw [h.messages_eq]
    exact h.distinct.sublist List.filter_sublist
  have hleft : r.left = g.messages.filter r.barrier.retains := by
    apply hr.left_eq hdist
    intro m hm
    rw [h.messages_eq, List.mem_filter, Bool.and_eq_true] at hm
    exact hm.2.2
  rw [he]
  refine ⟨k, ?_, hnext, ?_, ?_, ?_⟩
  · show r.released = _
    rw [hr.released_eq]
    exact h.firstsFrom_messages (by omega) le_rfl hr.inside
  · constructor
    · exact h.isOpen
    · exact h.size_eq
    · show r.left = accepted.filter fun m => isInside g.size m && r.barrier.retains m
      rw [hleft, h.messages_eq, List.filter_filter]
      apply List.filter_congr
      intro m _
      -- a barrier further on retains less
      have himp : r.barrier.retains m = true → g.barrier.retains m = true := by
        rw [Barrier.retains_iff, Barrier.retains_iff]
        intro hall n hn
        have := hall n hn
        omega
      cases hb : r.barrier.retains m with
      | false => simp
      | true => simp [himp hb]
    · exact h.wellFormed
    · exact h.agreed
    · exact h.distinct
    · exact h.unequal
    · show 0 < r.barrier.next.toNat
      omega
    · intro n hn hle
      replace hle : n.toNat ≤ r.barrier.next.toNat - 1 := hle
      by_cases hold : n.toNat ≤ g.barrier.next.toNat - 1
      · exact h.covers n hn hold
      · obtain ⟨m, hm, hmn⟩ := hr.taken n (by omega) (by omega)
        exact ⟨m, h.mem_accepted hm, hmn⟩
    · have hlen := g.perm_releaseRun.length_eq
      rw [he, List.length_append] at hlen
      replace hlen : r.released.length + r.left.length = g.messages.length := hlen
      rw [hr.length_released] at hlen
      have hrec := h.received_eq
      show g.received = r.left.length + (r.barrier.next.toNat - 1)
      unfold length at hrec
      omega
  · intro hdr
    replace hdr : r.barrier.isPast g.size = true := hdr
    cases hs : g.size with
    | none => simp [hs, Barrier.isPast] at hdr
    | some s =>
      refine ⟨s, rfl, ?_⟩
      simp only [isDrained, hs, Barrier.isPast, decide_eq_true_eq, decide_eq_false_iff_not,
        UInt32.lt_iff_toNat_lt] at hdr hd
      have := hr.inside s hs (by omega)
      show r.barrier.next.toNat = s.toNat + 1
      omega
  · intro hdr
    replace hdr : r.barrier.isPast g.size = false := hdr
    rcases hr.stopped with hp | hno
    · rw [hdr] at hp
      exact absurd hp (by simp)
    · exact hno

/-- Taking the numbered messages of a group that is not drained takes the accepted messages at all
positions from the barrier on that the sequence can have. -/
theorem takeNumbered (h : g.Reflects accepted) (hd : g.isDrained = false) :
    g.takeNumbered.1 = firstsFrom accepted g.barrier.next.toNat
      (limit g.size - g.barrier.next.toNat) := by
  have hlimit := limit_le g.size
  have hnext := next_le_limit hd
  have hdist : Distinct g.messages := by
    rw [h.messages_eq]
    exact h.distinct.sublist List.filter_sublist
  show ordered (g.messages.filter (·.isNumbered)) = _
  rw [ordered_eq_firstsFrom (hdist.sublist List.filter_sublist)
    (show g.barrier.next.toNat + (limit g.size - g.barrier.next.toNat) ≤ 2 ^ 32 by omega)]
  · have hinside : ∀ s, g.size = some s → limit g.size = s.toNat + 1 := by
      intro s hs
      rw [hs]
      rfl
    rw [← h.firstsFrom_messages (by omega) le_rfl fun s hs _ => by have := hinside s hs; omega]
    apply firstsFrom_congr
    intro i _ _
    apply firstAt_filter
    intro m _ hm
    simp [Message.isNumbered, hm]
  · intro m hm
    rw [List.mem_filter] at hm
    obtain ⟨n, hn⟩ := Option.isSome_iff_exists.1 hm.2
    have hmem := hm.1
    rw [h.messages_eq, List.mem_filter, Bool.and_eq_true] at hmem
    have hlt := lt_limit hmem.2.1 hn
    exact ⟨n, hn, (Barrier.retains_iff _ _).1 hmem.2.2 n hn, by omega⟩

end Reflects

/-! ## The whole sequence -/

/-- A group holds the whole sequence if every position is taken by a buffered message.

**Proof sketch.** The first messages at the positions are as many as the sequence is long, they are
distinct, and all of them are buffered. So a group that holds every position has enough messages,
and the look-up of the positions decides. -/
lemma hasWholeSequence_iff (g : Group) :
    g.hasWholeSequence = true ↔ ∃ s, g.size = some s ∧ Covers g.messages s.toNat := by
  unfold hasWholeSequence
  cases hs : g.size with
  | none => simp
  | some s =>
    have hlt := s.toNat_lt
    have hcov : ((List.range s.toNat).all fun i => g.holds (UInt32.ofNat (i + 1))) = true ↔
        Covers g.messages s.toNat := by
      rw [List.all_eq_true]
      constructor
      · intro hall n hn hle
        have hpos := toNat_pos hn
        have := (g.holds_iff _).1 (hall (n.toNat - 1) (List.mem_range.2 (by omega)))
        rwa [show n.toNat - 1 + 1 = n.toNat by omega, UInt32.ofNat_toNat] at this
      · intro hall i hi
        rw [List.mem_range] at hi
        have h0 : (UInt32.ofNat (i + 1)).toNat = i + 1 := toNat_ofNat (by omega)
        exact (g.holds_iff _).2 (hall _ (ne_zero (by omega)) (by omega))
    simp only [Bool.and_eq_true, decide_eq_true_eq, hcov, Option.some.injEq, exists_eq_left']
    refine ⟨fun h => h.2, fun h => ⟨?_, h⟩⟩
    have hnodup : (firsts g.messages s.toNat).Nodup :=
      (pairwise_firstsFrom g.messages (by omega)).imp fun h e => by simp [e] at h
    have hsub : firsts g.messages s.toNat ⊆ g.messages := by
      intro m hm
      obtain ⟨i, -, -, hi⟩ := mem_firstsFrom.1 hm
      exact (firstAt_eq_some hi).1
    have := hnodup.length_le_of_subset hsub
    rwa [length_firsts h hlt] at this

end Group

end Regroup
