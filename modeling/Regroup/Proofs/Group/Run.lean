import Regroup.Proofs.Group.Position

/-!
# The run that is due next

Taking messages from a group one position after the other ends where a position is missing or the
sequence is over. What it takes is the stretch of positions behind the barrier; what it leaves are
the messages that the barrier has not gone past.

## Main definitions

* `Regroup.Barrier.retains` — whether the barrier has not gone past a message.
* `Regroup.Group.IsRun` — what is true of the run of a list of messages.

## Main results

* `Regroup.Group.isRun_run` — taking messages as far as it goes gives the run.
* `Regroup.Group.isRun_releaseRun` — so does releasing from a group.
-/

namespace Regroup

open SequenceNumber

namespace Barrier

/-- Whether the barrier has not gone past the message. -/
def retains (b : Barrier) (m : Message) : Bool :=
  match m.number with
  | some n => !b.isReleased n
  | none => true

/-- A barrier retains what has no position and what stands at its position or behind it. -/
lemma retains_iff (b : Barrier) (m : Message) :
    b.retains m = true ↔ ∀ n, m.number = some n → b.next.toNat ≤ n.toNat := by
  unfold retains isReleased
  cases m.number with
  | none => simp
  | some n => simp [UInt32.le_iff_toNat_le]

/-- The barrier behind a position that is not the last stands one further. -/
lemma toNat_next_step {b : Barrier} (h : b.next ≠ last) :
    b.step.next.toNat = b.next.toNat + 1 :=
  toNat_succ h

end Barrier

namespace Group

variable {ms : List Message}

/-! ## Taking one message -/

/-- Extraction takes the first message at the position out of the list. -/
lemma extract_eq (n : SequenceNumber) (ms : List Message) :
    extract n ms = (firstAt ms n).map fun m => (m, ms.eraseP (·.number == some n)) := by
  induction ms with
  | nil => rfl
  | cons x xs ih =>
    unfold firstAt at ih ⊢
    by_cases h : x.number = some n
    · simp [extract, h]
    · simp [extract, h, ih, Function.comp_def]

/-- The message taken out and the rest are the messages of the list. -/
lemma perm_of_firstAt {n : SequenceNumber} {m : Message} (h : firstAt ms n = some m) :
    (m :: ms.eraseP (·.number == some n)).Perm ms := by
  induction ms with
  | nil => simp [firstAt] at h
  | cons x xs ih =>
    by_cases hx : x.number = some n
    · obtain rfl : x = m := by simpa [firstAt, hx] using h
      simp [hx]
    · have h' : firstAt xs n = some m := by simpa [firstAt, hx] using h
      rw [List.eraseP_cons_of_neg (by simpa using hx)]
      exact (List.Perm.swap x m _).trans ((ih h').cons x)

/-- Taking out a message changes nothing at the other positions. -/
lemma firstAt_eraseP {n n' : SequenceNumber} (h : n' ≠ n) :
    firstAt (ms.eraseP (·.number == some n)) n' = firstAt ms n' := by
  induction ms with
  | nil => rfl
  | cons x xs ih =>
    by_cases hx : x.number = some n
    · simp [firstAt, hx, Ne.symm h]
    · rw [List.eraseP_cons_of_neg (by simpa using hx)]
      unfold firstAt at ih ⊢
      rw [List.find?_cons, List.find?_cons, ih]

/-- At distinct positions taking out the message at a position leaves all others. -/
lemma eraseP_eq_filter (h : Distinct ms) (n : SequenceNumber) :
    ms.eraseP (·.number == some n) = ms.filter (·.number != some n) := by
  induction ms with
  | nil => rfl
  | cons x xs ih =>
    have hxs : Distinct xs := h.sublist (List.sublist_cons_self x xs)
    by_cases hx : x.number = some n
    · -- no message of the tail stands where the head does
      have hrest : xs.filter (·.number != some n) = xs := by
        rw [List.filter_eq_self]
        intro y hy
        have hne : y.number ≠ some n := by
          intro hyn
          unfold Distinct at h
          rw [List.filterMap_cons_some hx, List.nodup_cons] at h
          exact h.1 (List.mem_filterMap.2 ⟨y, hy, hyn⟩)
        simpa using hne
      simp [hx, hrest]
    · simp [hx, ih hxs]

/-! ## Taking a run -/

/-- Taking a run loses nothing, and nothing comes in. -/
lemma perm_run (size : Option SequenceNumber) (rounds : ℕ) (b : Barrier) (ms : List Message) :
    ((run size rounds b ms).released ++ (run size rounds b ms).left).Perm ms := by
  induction rounds generalizing b ms with
  | zero => exact .refl _
  | succ rounds ih =>
    unfold run
    split
    · exact .refl _
    · rw [extract_eq]
      cases hm : firstAt ms b.next with
      | none => exact .refl _
      | some m => exact ((ih _ _).cons m).trans (perm_of_firstAt hm)

/-- Taking a run leaves messages of the list, in their order. -/
lemma left_run_sublist (size : Option SequenceNumber) (rounds : ℕ) (b : Barrier)
    (ms : List Message) : (run size rounds b ms).left.Sublist ms := by
  induction rounds generalizing b ms with
  | zero => exact .refl ms
  | succ rounds ih =>
    unfold run
    split
    · exact .refl ms
    · rw [extract_eq]
      cases firstAt ms b.next with
      | none => exact .refl ms
      | some m => exact (ih b.step _).trans List.eraseP_sublist

/-- What is true of the run of length `k` that starts at a barrier. -/
structure IsRun (size : Option SequenceNumber) (b : Barrier) (ms : List Message) (k : ℕ)
    (r : Run) : Prop where
  /-- The barrier has moved behind the run. -/
  next_eq : r.barrier.next.toNat = b.next.toNat + k
  /-- The first message at each position of the run is released, in order. -/
  released_eq : r.released = firstsFrom ms b.next.toNat k
  /-- No position of the run is missing. -/
  taken : ∀ n : SequenceNumber, b.next.toNat ≤ n.toNat → n.toNat < b.next.toNat + k →
    ∃ m ∈ ms, m.number = some n
  /-- Every position gives one message. -/
  length_released : r.released.length = k
  /-- The run does not go beyond the end of the sequence. -/
  inside : ∀ s, size = some s → k ≠ 0 → b.next.toNat + k ≤ s.toNat + 1
  /-- The run ends with the sequence or at a position that is missing. -/
  stopped : r.barrier.isPast size = true ∨ ∀ m ∈ ms, m.number ≠ some r.barrier.next
  /-- At distinct positions what the barrier has not gone past is left, in order. -/
  left_eq : Distinct ms → (∀ m ∈ ms, b.retains m = true) → r.left = ms.filter r.barrier.retains

/-- A run that takes nothing. -/
private lemma isRun_nil {size : Option SequenceNumber} {b : Barrier}
    (h : b.isPast size = true ∨ ∀ m ∈ ms, m.number ≠ some b.next) :
    IsRun size b ms 0 ⟨[], b, ms⟩ where
  next_eq := rfl
  released_eq := rfl
  taken n hle hlt := by omega
  length_released := rfl
  inside s _ hk := absurd rfl hk
  stopped := h
  left_eq _ hr := (List.filter_eq_self.2 hr).symm

/-- A run that goes on after its first message. -/
private lemma isRun_cons {size : Option SequenceNumber} {b : Barrier} {k : ℕ} {later : Run}
    {m : Message} (hm : firstAt ms b.next = some m) (hpast : b.isPast size = false)
    (hlast : b.next ≠ last)
    (h : IsRun size b.step (ms.eraseP (·.number == some b.next)) k later) :
    IsRun size b ms (k + 1) { later with released := m :: later.released } := by
  have hstep := Barrier.toNat_next_step hlast
  have hsub : ∀ x ∈ ms.eraseP (·.number == some b.next), x ∈ ms :=
    fun x hx => (List.eraseP_sublist (l := ms)).subset hx
  have hnext : later.barrier.next.toNat = b.next.toNat + (k + 1) := by
    rw [h.next_eq, hstep]; omega
  constructor
  · exact hnext
  · show m :: later.released = _
    rw [firstsFrom_succ, UInt32.ofNat_toNat, hm, h.released_eq, hstep]
    simp only [Option.toList_some, List.singleton_append, List.cons.injEq, true_and]
    apply firstsFrom_congr
    intro i hi hik
    have hlt : i < 2 ^ 32 := by
      have := later.barrier.next.toNat_lt
      omega
    apply firstAt_eraseP
    intro e
    rw [eq_comm, eq_ofNat_iff hlt] at e
    omega
  · intro n hle hlt
    by_cases hn : n = b.next
    · subst hn
      exact ⟨m, (firstAt_eq_some hm).1, (firstAt_eq_some hm).2⟩
    · have : n.toNat ≠ b.next.toNat := fun e => hn (UInt32.toNat_inj.1 e)
      obtain ⟨x, hx, hxn⟩ := h.taken n (by omega) (by omega)
      exact ⟨x, hsub x hx, hxn⟩
  · show (m :: later.released).length = k + 1
    rw [List.length_cons, h.length_released]
  · intro s hs _
    by_cases hk : k = 0
    · subst hs hk
      simp only [Barrier.isPast, decide_eq_false_iff_not, UInt32.lt_iff_toNat_lt] at hpast
      omega
    · have := h.inside s hs hk
      omega
  · rcases h.stopped with hp | hno
    · exact .inl hp
    · refine .inr fun x hx hxn => ?_
      -- the position at which the run stopped is not the one of the message taken out
      have hne : later.barrier.next ≠ b.next := by
        intro e
        rw [e] at hnext
        omega
      obtain ⟨y, hy⟩ := exists_firstAt ⟨x, hx, hxn⟩
      rw [← firstAt_eraseP hne] at hy
      exact hno y (firstAt_eq_some hy).1 (firstAt_eq_some hy).2
  · intro hd hr
    rw [eraseP_eq_filter hd] at h
    have hd' : Distinct (ms.filter (·.number != some b.next)) := hd.sublist List.filter_sublist
    have hr' : ∀ x ∈ ms.filter (·.number != some b.next), b.step.retains x = true := by
      intro x hx
      rw [List.mem_filter] at hx
      have hle := (b.retains_iff x).1 (hr x hx.1)
      rw [Barrier.retains_iff]
      intro n hn
      have hne : n ≠ b.next := by
        rintro rfl
        simp [hn] at hx
      have hne' : n.toNat ≠ b.next.toNat := fun e => hne (UInt32.toNat_inj.1 e)
      have := hle n hn
      omega
    show later.left = _
    rw [h.left_eq hd' hr', List.filter_filter]
    apply List.filter_congr
    intro x _
    by_cases hx : x.number = some b.next
    · have : later.barrier.retains x = false := by
        rw [← Bool.not_eq_true, Barrier.retains_iff]
        intro hall
        have := hall _ hx
        omega
      rw [this, Bool.false_and]
    · simp [hx]

/-- Taking messages position by position, with as many rounds as there are messages, gives the run
that starts at the barrier, if a position at the barrier or behind it is missing.

**Proof sketch.** Induction on the rounds. A round either finds the sequence over or the position
missing, and the run is empty; or it takes the first message at the position, and the run goes on
in the rest, where nothing has changed at the positions that follow. The missing position is never
stepped over, so no step goes beyond the last one. -/
theorem isRun_run (size : Option SequenceNumber) (rounds : ℕ) (b : Barrier) (ms : List Message)
    (hlen : ms.length ≤ rounds)
    (hfree : ∃ n : SequenceNumber, b.next.toNat ≤ n.toNat ∧ ∀ m ∈ ms, m.number ≠ some n) :
    ∃ k, IsRun size b ms k (run size rounds b ms) := by
  obtain ⟨n, hle, hn⟩ := hfree
  induction rounds generalizing b ms with
  | zero =>
    obtain rfl : ms = [] := List.length_eq_zero_iff.1 (by omega)
    exact ⟨0, isRun_nil (.inr (by simp))⟩
  | succ rounds ih =>
    unfold run
    by_cases hpast : b.isPast size = true
    · rw [if_pos hpast]
      exact ⟨0, isRun_nil (.inl hpast)⟩
    · rw [if_neg hpast, extract_eq]
      cases hm : firstAt ms b.next with
      | none => exact ⟨0, isRun_nil (.inr (firstAt_eq_none_iff.1 hm))⟩
      | some m =>
        obtain ⟨hmem, hnum⟩ := firstAt_eq_some hm
        have hnext : b.next.toNat ≠ n.toNat := fun e => hn m hmem (UInt32.toNat_inj.1 e ▸ hnum)
        have hne : b.next ≠ last := by
          intro e
          have := le_last n
          rw [← e] at this
          omega
        have hlen' : (ms.eraseP (·.number == some b.next)).length ≤ rounds := by
          have := (perm_of_firstAt hm).length_eq
          rw [List.length_cons] at this
          omega
        obtain ⟨k, hk⟩ := ih b.step _ hlen' (by rw [Barrier.toNat_next_step hne]; omega)
          fun x hx => hn x ((List.eraseP_sublist (l := ms)).subset hx)
        exact ⟨k + 1, isRun_cons hm (by simpa using hpast) hne hk⟩

/-- Releasing from a group loses nothing, and nothing comes in. -/
lemma perm_releaseRun (g : Group) :
    (g.releaseRun.1 ++ g.releaseRun.2.messages).Perm g.messages :=
  perm_run _ _ _ _

/-- Releasing from a group takes the run that is due next, and changes nothing else. -/
theorem isRun_releaseRun (g : Group) (hfree : ∃ n : SequenceNumber,
      g.barrier.next.toNat ≤ n.toNat ∧ ∀ m ∈ g.messages, m.number ≠ some n) :
    ∃ k r, IsRun g.size g.barrier g.messages k r ∧
      g.releaseRun = (r.released, { g with messages := r.left, barrier := r.barrier }) := by
  obtain ⟨k, hk⟩ := isRun_run g.size g.messages.length g.barrier g.messages le_rfl hfree
  exact ⟨k, _, hk, rfl⟩

end Group

end Regroup
