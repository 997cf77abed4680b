import Regroup.Group.Removal
import Mathlib.Algebra.Group.Nat.Defs
import Mathlib.Data.List.Sort

/-!
# Messages by position

A list of messages read as a partial map from positions: the first message at a position is the
one that counts. The order in which a resequencer emits is the order of the positions, so its
emissions are stretches of this map.

## Main definitions

* `Regroup.firstAt` — the first message at a position.
* `Regroup.firstsFrom`, `Regroup.firsts` — the first messages at a stretch of positions, in order.
* `Regroup.Covers`, `Regroup.gaps` — that every position up to a bound is taken, and the positions
  that are not.
* `Regroup.Distinct` — no position is taken twice.

## Main results

* `Regroup.map_number_firsts` — the positions of a covered stretch come out one by one.
* `Regroup.Group.ordered_eq_firstsFrom` — ordering messages at distinct positions gives the first
  message at each of them, in order.
-/

namespace Regroup

/-! ## Positions -/

namespace SequenceNumber

/-- The greatest position that a message can tell. -/
def last : SequenceNumber := 4294967295

/-- No position lies behind the last one. -/
lemma le_last (n : SequenceNumber) : n.toNat ≤ last.toNat := by
  have hlt := n.toNat_lt
  show n.toNat ≤ 4294967295
  omega

/-- Behind every position but the last one comes the next. -/
lemma toNat_succ {n : SequenceNumber} (h : n ≠ last) : (n + 1).toNat = n.toNat + 1 := by
  have hn : n.toNat ≠ 4294967295 := fun e => h (UInt32.toNat_inj.1 e)
  have hlt := n.toNat_lt
  rw [UInt32.toNat_add, UInt32.toNat_one]
  omega

/-- A position is read back from its number. -/
lemma toNat_ofNat {i : ℕ} (h : i < 2 ^ 32) : (UInt32.ofNat i).toNat = i := by
  rw [UInt32.toNat_ofNat', Nat.mod_eq_of_lt h]

/-- Two positions with the same number are the same. -/
lemma eq_ofNat_iff {n : SequenceNumber} {i : ℕ} (h : i < 2 ^ 32) :
    n = UInt32.ofNat i ↔ n.toNat = i := by
  rw [← UInt32.toNat_inj, toNat_ofNat h]

/-- Positions count from one. -/
lemma toNat_pos {n : SequenceNumber} (h : n ≠ 0) : 0 < n.toNat := by
  have : n.toNat ≠ 0 := fun e => h (UInt32.toNat_inj.1 e)
  omega

/-- A position that counts from one is not zero. -/
lemma ne_zero {n : SequenceNumber} (h : 0 < n.toNat) : n ≠ 0 := by
  rintro rfl
  simp at h

end SequenceNumber

open SequenceNumber

variable {ms : List Message}

/-! ## The first message at a position -/

/-- The first message at a position. -/
def firstAt (ms : List Message) (n : SequenceNumber) : Option Message :=
  ms.find? (·.number == some n)

/-- The first message at a position is one of the messages, and it stands at the position. -/
lemma firstAt_eq_some {n : SequenceNumber} {m : Message} (h : firstAt ms n = some m) :
    m ∈ ms ∧ m.number = some n :=
  ⟨List.mem_of_find?_eq_some h, by simpa using List.find?_some h⟩

/-- There is no first message exactly where no message stands. -/
lemma firstAt_eq_none_iff {n : SequenceNumber} :
    firstAt ms n = none ↔ ∀ m ∈ ms, m.number ≠ some n := by
  simp [firstAt]

/-- A taken position has a first message. -/
lemma exists_firstAt {n : SequenceNumber} (h : ∃ m ∈ ms, m.number = some n) :
    ∃ m, firstAt ms n = some m := by
  rw [← Option.ne_none_iff_exists']
  intro e
  obtain ⟨m, hm, hn⟩ := h
  exact firstAt_eq_none_iff.1 e m hm hn

/-- A position has a first message exactly if it is taken. -/
lemma isSome_firstAt_iff {n : SequenceNumber} :
    (firstAt ms n).isSome = true ↔ ∃ m ∈ ms, m.number = some n := by
  simp [firstAt, List.find?_isSome]

/-- Messages that come later change nothing at a taken position. -/
lemma firstAt_append (ms ms' : List Message) (n : SequenceNumber) :
    firstAt (ms ++ ms') n = (firstAt ms n).or (firstAt ms' n) :=
  List.find?_append

/-- Leaving out messages at other positions changes nothing. -/
lemma firstAt_filter {n : SequenceNumber} {q : Message → Bool}
    (h : ∀ m ∈ ms, m.number = some n → q m = true) :
    firstAt (ms.filter q) n = firstAt ms n := by
  induction ms with
  | nil => rfl
  | cons x xs ih =>
    have ih' := ih fun m hm => h m (List.mem_cons_of_mem _ hm)
    by_cases hn : x.number = some n
    · simp [firstAt, h x List.mem_cons_self hn, hn]
    · cases hq : q x <;> simpa [firstAt, hq, hn] using ih'

/-- No position is taken twice. -/
def Distinct (ms : List Message) : Prop := (ms.filterMap (·.number)).Nodup

/-- At distinct positions two messages at one position are the same. -/
lemma Distinct.eq (h : Distinct ms) {a b : Message} (ha : a ∈ ms) (hb : b ∈ ms)
    {n : SequenceNumber} (hna : a.number = some n) (hnb : b.number = some n) : a = b := by
  induction ms with
  | nil => simp at ha
  | cons x xs ih =>
    -- a message equal to the head at `n` cannot be in the tail, whose positions differ from it
    have hx : ∀ y ∈ xs, y.number = some n → x.number ≠ some n := by
      intro y hy hyn hxn
      unfold Distinct at h
      rw [List.filterMap_cons_some hxn, List.nodup_cons] at h
      exact h.1 (List.mem_filterMap.2 ⟨y, hy, hyn⟩)
    have hxs : Distinct xs := List.Nodup.sublist ((List.sublist_cons_self x xs).filterMap _) h
    rcases List.mem_cons.1 ha with rfl | ha' <;> rcases List.mem_cons.1 hb with rfl | hb'
    · rfl
    · exact absurd hna (hx b hb' hnb)
    · exact absurd hnb (hx a ha' hna)
    · exact ih hxs ha' hb'

/-- Leaving out messages keeps positions distinct. -/
lemma Distinct.sublist {ms' : List Message} (h : Distinct ms) (hs : ms'.Sublist ms) :
    Distinct ms' :=
  List.Nodup.sublist (hs.filterMap _) h

/-- A message at a position of its own can be added. -/
lemma Distinct.concat {m : Message} (h : Distinct ms)
    (hm : ∀ n, m.number = some n → ∀ a ∈ ms, a.number ≠ some n) : Distinct (ms ++ [m]) := by
  unfold Distinct
  rw [List.filterMap_append, List.nodup_append]
  refine ⟨h, ?_, ?_⟩
  · cases hn : m.number <;> simp [hn]
  · intro n hn n' hn' e
    subst e
    obtain ⟨a, ha, han⟩ := List.mem_filterMap.1 hn
    obtain ⟨b, hb, hbn⟩ := List.mem_filterMap.1 hn'
    rw [List.mem_singleton] at hb
    subst hb
    exact hm n hbn a ha han

/-! ## Stretches of positions -/

/-- The first messages at the `k` positions from `a` on, in the order of the positions. -/
def firstsFrom (ms : List Message) (a k : ℕ) : List Message :=
  (List.range' a k).filterMap fun i => firstAt ms (UInt32.ofNat i)

/-- The first messages at the positions from one to `k`, in the order of the positions. -/
def firsts (ms : List Message) (k : ℕ) : List Message := firstsFrom ms 1 k

@[simp] lemma firstsFrom_nil (a k : ℕ) : firstsFrom [] a k = [] := by
  simp [firstsFrom, firstAt]

@[simp] lemma firstsFrom_zero (ms : List Message) (a : ℕ) : firstsFrom ms a 0 = [] := rfl

/-- A stretch is cut in two anywhere. -/
lemma firstsFrom_add (ms : List Message) (a j k : ℕ) :
    firstsFrom ms a (j + k) = firstsFrom ms a j ++ firstsFrom ms (a + j) k := by
  unfold firstsFrom
  rw [← List.filterMap_append]
  congr 1
  simp

/-- A stretch begins with the message at its first position. -/
lemma firstsFrom_succ (ms : List Message) (a k : ℕ) :
    firstsFrom ms a (k + 1) =
      (firstAt ms (UInt32.ofNat a)).toList ++ firstsFrom ms (a + 1) k := by
  unfold firstsFrom
  rw [List.range'_succ]
  cases h : firstAt ms (UInt32.ofNat a) <;> simp [h]

/-- A stretch depends only on the messages at its positions. -/
lemma firstsFrom_congr {ms ms' : List Message} {a k : ℕ}
    (h : ∀ i, a ≤ i → i < a + k → firstAt ms (UInt32.ofNat i) = firstAt ms' (UInt32.ofNat i)) :
    firstsFrom ms a k = firstsFrom ms' a k := by
  unfold firstsFrom
  apply List.filterMap_congr
  intro i hi
  rw [List.mem_range'_1] at hi
  exact h i hi.1 hi.2

/-- The messages of a stretch stand at its positions. -/
lemma mem_firstsFrom {a k : ℕ} {m : Message} :
    m ∈ firstsFrom ms a k ↔
      ∃ i, a ≤ i ∧ i < a + k ∧ firstAt ms (UInt32.ofNat i) = some m := by
  simp only [firstsFrom, List.mem_filterMap, List.mem_range'_1, and_assoc]

/-- At distinct positions every message at a position of a stretch is in it. -/
lemma Distinct.mem_firstsFrom (h : Distinct ms) {a k : ℕ} {m : Message} (hm : m ∈ ms)
    {n : SequenceNumber} (hn : m.number = some n) (hle : a ≤ n.toNat) (hlt : n.toNat < a + k) :
    m ∈ firstsFrom ms a k := by
  obtain ⟨m', hm'⟩ := exists_firstAt ⟨m, hm, hn⟩
  have he : m' = m := h.eq (firstAt_eq_some hm').1 hm (firstAt_eq_some hm').2 hn
  exact Regroup.mem_firstsFrom.2 ⟨n.toNat, hle, hlt, by rw [UInt32.ofNat_toNat, hm', he]⟩

/-- Every position from one to `k` is taken. -/
def Covers (ms : List Message) (k : ℕ) : Prop :=
  ∀ n : SequenceNumber, n ≠ 0 → n.toNat ≤ k → ∃ m ∈ ms, m.number = some n

/-- Every position of a covered stretch has a first message. -/
lemma Covers.exists_firstAt {k i : ℕ} (h : Covers ms k) (hk : k < 2 ^ 32) (hi : 0 < i)
    (hle : i ≤ k) : ∃ m, firstAt ms (UInt32.ofNat i) = some m := by
  have h0 : (UInt32.ofNat i).toNat = i := toNat_ofNat (by omega)
  exact Regroup.exists_firstAt (h _ (ne_zero (by omega)) (by omega))

/-- Messages that come later do not change a covered stretch. -/
lemma firsts_append {k : ℕ} (h : Covers ms k) (hk : k < 2 ^ 32) (ms' : List Message) :
    firsts (ms ++ ms') k = firsts ms k := by
  apply firstsFrom_congr
  intro i hi hik
  obtain ⟨m, hm⟩ := h.exists_firstAt hk (by omega) (show i ≤ k by omega)
  rw [firstAt_append, hm, Option.some_or]

/-- More messages cover no less. -/
lemma Covers.append {k : ℕ} (h : Covers ms k) (ms' : List Message) : Covers (ms ++ ms') k := by
  intro n hn hk
  obtain ⟨m, hm, hmn⟩ := h n hn hk
  exact ⟨m, List.mem_append_left _ hm, hmn⟩

/-- Without a message at the last position of all not every position is taken. -/
lemma not_covers_last (h : ∀ m ∈ ms, m.number ≠ some last) : ¬ Covers ms last.toNat := by
  intro hcov
  obtain ⟨m, hm, hmn⟩ := hcov last (by decide) le_rfl
  exact h m hm hmn

/-- If not every position is taken, but all before one are, then that one or one behind it is
missing. -/
lemma exists_missing_of_covers {i : SequenceNumber} (h : Covers ms (i.toNat - 1))
    (hfree : ¬ Covers ms last.toNat) :
    ∃ n : SequenceNumber, i.toNat ≤ n.toNat ∧ ∀ m ∈ ms, m.number ≠ some n := by
  by_contra hall
  push Not at hall
  refine hfree fun n hn _ => ?_
  rcases Nat.lt_or_ge n.toNat i.toNat with hlt | hge
  · exact h n hn (by omega)
  · exact hall n hge

/-- The messages at a covered stretch have the positions one, two, and so on up to its end. -/
lemma map_number_firsts {k : ℕ} (h : Covers ms k) (hk : k < 2 ^ 32) :
    (firsts ms k).map (·.number) = (List.range' 1 k).map fun i => some (UInt32.ofNat i) := by
  induction k with
  | zero => rfl
  | succ k ih =>
    have hk' : Covers ms k := fun n hn hle => h n hn (by omega)
    obtain ⟨m, hm⟩ := h.exists_firstAt hk (by omega) (show 1 + k ≤ k + 1 by omega)
    have hlast : firstsFrom ms (1 + k) 1 = [m] := by
      rw [firstsFrom_succ, hm]
      rfl
    unfold firsts at ih ⊢
    rw [firstsFrom_add, hlast, List.map_append, ih hk' (by omega), List.range'_concat,
      List.map_append]
    simp [(firstAt_eq_some hm).2]

/-- A covered stretch has as many messages as positions. -/
lemma length_firsts {k : ℕ} (h : Covers ms k) (hk : k < 2 ^ 32) : (firsts ms k).length = k := by
  have := congrArg List.length (map_number_firsts h hk)
  simpa using this

/-- The positions from one to `k` that are not taken. -/
def gaps (ms : List Message) (k : ℕ) : List ℕ :=
  (List.range' 1 k).filter fun i => (firstAt ms (UInt32.ofNat i)).isNone

/-- Every position from one to `k` has a first message or is a gap. -/
lemma length_firsts_add_length_gaps (ms : List Message) (k : ℕ) :
    (firsts ms k).length + (gaps ms k).length = k := by
  have hparts := List.length_eq_length_filter_add (l := List.range' 1 k)
    fun i => (firstAt ms (UInt32.ofNat i)).isSome
  simp only [List.length_range', Option.not_isSome] at hparts
  unfold firsts firstsFrom gaps
  rw [List.length_filterMap_eq_countP, List.countP_eq_length_filter]
  exact hparts.symm

/-- A stretch is covered exactly if it has no gap. -/
lemma gaps_eq_nil_iff {k : ℕ} (hk : k < 2 ^ 32) : gaps ms k = [] ↔ Covers ms k := by
  constructor
  · intro hnone n hn hle
    rw [gaps, List.filter_eq_nil_iff] at hnone
    have hpos := toNat_pos hn
    have htaken := hnone n.toNat (List.mem_range'_1.2 ⟨hpos, by omega⟩)
    rw [UInt32.ofNat_toNat, Option.isNone_iff_eq_none, firstAt_eq_none_iff] at htaken
    simpa using htaken
  · intro hcovers
    have hparts := length_firsts_add_length_gaps ms k
    rw [length_firsts hcovers hk] at hparts
    exact List.length_eq_zero_iff.1 (by omega)

/-! ## Ordering -/

namespace Group

/-- Whether a message may stand before another in a list that is ordered by position. -/
def Precedes (a b : Message) : Prop := a.number.getD 0 ≤ b.number.getD 0

instance : DecidableRel Precedes := fun a b =>
  inferInstanceAs (Decidable (a.number.getD 0 ≤ b.number.getD 0))

instance : Std.Total Precedes := ⟨fun a b => by
  simp only [Precedes, UInt32.le_iff_toNat_le]; omega⟩

instance : IsTrans Message Precedes := ⟨fun a b c hab hbc => by
  simp only [Precedes, UInt32.le_iff_toNat_le] at *; omega⟩

/-- Ordering by position is insertion sort. -/
lemma ordered_eq_insertionSort (ms : List Message) : ordered ms = ms.insertionSort Precedes := by
  have hins : ∀ (m : Message) (l : List Message),
      insertOrdered m l = l.orderedInsert Precedes m := by
    intro m l
    induction l with
    | nil => rfl
    | cons x xs ih =>
      simp only [insertOrdered, List.orderedInsert, ih]
      rfl
  induction ms with
  | nil => rfl
  | cons x xs ih =>
    rw [List.insertionSort_cons, ← ih, ← hins]
    rfl

/-- A stretch is in the order of its positions. -/
lemma pairwise_firstsFrom (ms : List Message) {a k : ℕ} (h : a + k ≤ 2 ^ 32) :
    (firstsFrom ms a k).Pairwise fun x y => x.number.getD 0 < y.number.getD 0 := by
  unfold firstsFrom
  rw [List.pairwise_filterMap]
  apply List.Pairwise.imp_of_mem _ List.pairwise_lt_range'
  intro i j hi hj hij x hx y hy
  rw [List.mem_range'_1] at hi hj
  rw [(firstAt_eq_some hx).2, (firstAt_eq_some hy).2, Option.getD_some, Option.getD_some,
    UInt32.lt_iff_toNat_lt, toNat_ofNat (by omega), toNat_ofNat (by omega)]
  exact hij

/-- Ordering messages at distinct positions of a stretch gives the first message at each position
of the stretch, in order.

**Proof sketch.** Both sides are in the order of the positions and hold the same messages, each
once. In a list of messages at distinct positions a message is determined by its position, so the
order leaves no choice. -/
lemma ordered_eq_firstsFrom {a k : ℕ} (hd : Distinct ms) (h : a + k ≤ 2 ^ 32)
    (hr : ∀ m ∈ ms, ∃ n, m.number = some n ∧ a ≤ n.toNat ∧ n.toNat < a + k) :
    ordered ms = firstsFrom ms a k := by
  have hmem : ∀ m, m ∈ firstsFrom ms a k ↔ m ∈ ms := by
    intro m
    constructor
    · intro hm
      obtain ⟨i, -, -, hi⟩ := mem_firstsFrom.1 hm
      exact (firstAt_eq_some hi).1
    · intro hm
      obtain ⟨n, hn, hle, hlt⟩ := hr m hm
      exact hd.mem_firstsFrom hm hn hle hlt
  have hsorted := pairwise_firstsFrom ms h
  have hnodup : ms.Nodup := by
    refine List.Pairwise.imp_of_mem ?_ (List.pairwise_filterMap.1 hd)
    intro x y hx _ hxy e
    subst e
    obtain ⟨n, hn, -, -⟩ := hr x hx
    exact hxy n hn n hn rfl
  have hperm : (firstsFrom ms a k).Perm ms :=
    (List.perm_ext_iff_of_nodup (hsorted.imp fun h e => by simp [e] at h) hnodup).2 hmem
  rw [ordered_eq_insertionSort]
  refine List.Perm.eq_of_pairwise ?_ (ms.pairwise_insertionSort Precedes)
    (hsorted.imp fun h => ?_) ((ms.perm_insertionSort Precedes).trans hperm.symm)
  · intro x y hx hy hxy hyx
    rw [List.mem_insertionSort] at hx
    obtain ⟨n, hn, -, -⟩ := hr x hx
    obtain ⟨n', hn', -, -⟩ := hr y ((hmem y).1 hy)
    have e : n = n' := by
      simp only [Precedes, hn, hn', Option.getD_some, UInt32.le_iff_toNat_le] at hxy hyx
      exact UInt32.toNat_inj.1 (by omega)
    subst e
    exact hd.eq hx ((hmem y).1 hy) hn hn'
  · simp only [Precedes, UInt32.le_iff_toNat_le, UInt32.lt_iff_toNat_lt] at h ⊢
    omega

/-- At distinct positions up to `k` there are as many numbered messages as positions taken. -/
lemma length_filter_isNumbered {k : ℕ} (hd : Distinct ms) (hk : k < 2 ^ 32)
    (hr : ∀ m ∈ ms, ∀ n, m.number = some n → n ≠ 0 ∧ n.toNat ≤ k) :
    (ms.filter (·.isNumbered)).length = (firsts ms k).length := by
  have hordered : ordered (ms.filter (·.isNumbered)) = firsts (ms.filter (·.isNumbered)) k := by
    refine ordered_eq_firstsFrom (hd.sublist List.filter_sublist) (by omega) fun m hm => ?_
    rw [List.mem_filter] at hm
    obtain ⟨n, hn⟩ := Option.isSome_iff_exists.1 hm.2
    obtain ⟨hne, hle⟩ := hr m hm.1 n hn
    have := toNat_pos hne
    exact ⟨n, hn, by omega, by omega⟩
  have hfirsts : firsts (ms.filter (·.isNumbered)) k = firsts ms k :=
    firstsFrom_congr fun i _ _ => firstAt_filter fun m _ hm => by simp [Message.isNumbered, hm]
  rw [← hfirsts, ← hordered, ordered_eq_insertionSort, List.length_insertionSort]

end Group

end Regroup
