import Mathlib.Data.Nat.Notation
import Regroup.Time.DurationSum

/-!
# Durations that overflow

A text of a duration is unreadable where a number or a sum does not fit. There is one way past these
checks: an addition that makes the nanoseconds exactly a second, while the whole seconds are the
greatest number there is. The sum is then one nanosecond more than the longest duration, and putting
the duration together overflows. Where the duration is built anew behind each part, the first such
addition does it; where it is built once, the sum of all parts has to be that.

## Main definitions

* `Regroup.Duration.Total.brink` — the sum that no duration is as long as.
* `Regroup.Duration.Parts.Spills` — that the parts of a text come to it.

## Main results

* `Regroup.Duration.Total.build_eq_overflow_iff` — putting a duration together overflows exactly
  there.
* `Regroup.Duration.Parts.total_eq_overflow_iff` — and adding up exactly where the parts spill.
-/

namespace Regroup

/-! ## Computations that can fail -/

section Except

variable {ε α β : Type} {e : ε}

/-- A computation in two steps succeeds if both do. -/
lemma bind_eq_ok_iff {x : Except ε α} {f : α → Except ε β} {b : β} :
    (x >>= f) = .ok b ↔ ∃ a, x = .ok a ∧ f a = .ok b := by
  cases x with
  | error e' => simp [bind, Except.bind]
  | ok a => simp [bind, Except.bind]

/-- A computation in two steps fails in the first, or in the second behind a first that succeeds. -/
lemma bind_eq_error_iff {x : Except ε α} {f : α → Except ε β} :
    (x >>= f) = .error e ↔ x = .error e ∨ ∃ a, x = .ok a ∧ f a = .error e := by
  cases x with
  | error e' => simp [bind, Except.bind]
  | ok a => simp [bind, Except.bind]

/-- What is made of a result fails where the computation of the result does. -/
lemma map_eq_error_iff {x : Except ε α} {f : α → β} : f <$> x = .error e ↔ x = .error e := by
  cases x <;> simp [Functor.map, Except.map]

/-- A computation along a list fails at an element, behind a front part that it gets through. -/
lemma foldlM_eq_error_iff {f : β → α → Except ε β} {b : β} {l : List α} :
    l.foldlM f b = .error e ↔ ∃ front a back b', l = front ++ a :: back ∧
      front.foldlM f b = .ok b' ∧ f b' a = .error e := by
  induction l generalizing b with
  | nil => simp [pure, Except.pure]
  | cons a l ih =>
    rw [List.foldlM_cons, bind_eq_error_iff]
    constructor
    · rintro (h | ⟨b₁, hb, h⟩)
      · exact ⟨[], a, l, b, rfl, rfl, h⟩
      · obtain ⟨front, a', back, b', rfl, hfront, ha⟩ := ih.1 h
        exact ⟨a :: front, a', back, b', rfl, by rw [List.foldlM_cons, hb]; exact hfront, ha⟩
    · rintro ⟨_ | ⟨x, front⟩, a', back, b', hl, hfront, ha⟩
      · obtain ⟨rfl, rfl⟩ := List.cons.inj hl
        obtain rfl : b = b' := Except.ok.inj hfront
        exact .inl ha
      · obtain ⟨rfl, rfl⟩ := List.cons.inj hl
        rw [List.foldlM_cons] at hfront
        cases hb : f b a with
        | error e' => rw [hb] at hfront; cases hfront
        | ok b₁ =>
          rw [hb] at hfront
          exact .inr ⟨b₁, rfl, ih.2 ⟨front, a', back, b', rfl, hfront, ha⟩⟩

/-- What every step of a computation along a list keeps, a computation that succeeds keeps. -/
lemma foldlM_induction (P : β → Prop) {f : β → α → Except ε β} {b b' : β} {l : List α} (hb : P b)
    (hstep : ∀ b a b', P b → f b a = .ok b' → P b') (h : l.foldlM f b = .ok b') : P b' := by
  induction l generalizing b with
  | nil => exact Except.ok.inj h ▸ hb
  | cons a l ih =>
    rw [List.foldlM_cons] at h
    obtain ⟨b₁, ha, hl⟩ := bind_eq_ok_iff.1 h
    exact ih (hstep b a b₁ hb ha) hl

end Except

namespace Duration

variable {t t' : Total} {s : Span} {rebuilds : Bool}

/-! ## Sums -/

namespace Total

/-- The greatest sum there is: one nanosecond more than the longest duration. -/
def brink : Total := ⟨UInt64.size - 1, nanosPerSecond, by decide, Nat.le_refl _⟩

/-- A sum without a second in its nanoseconds is less. -/
lemma total_ne_brink (d : Duration) : d.total ≠ brink := by
  intro h
  have hnanos : d.nanos.val = 1000000000 := congrArg Total.nanos h
  have hlt := d.nanos.isLt
  omega

/-- Seconds and nanoseconds are no duration where the whole seconds do not fit. -/
lemma ofParts?_eq_none_iff {seconds nanos : ℕ} : ofParts? seconds nanos = none ↔
    UInt64.size ≤ seconds + nanos / nanosPerSecond := by
  simp [ofParts?]

/-- **Putting a duration together overflows exactly for the greatest sum.** An exact second is all
that is left to carry, and the seconds fit. -/
theorem build_eq_overflow_iff : t.build = .error .overflow ↔ t = brink := by
  have hbuild : t.build = .error .overflow ↔ ofParts? t.seconds t.nanos = none := by
    unfold build
    cases ofParts? t.seconds t.nanos <;> simp
  obtain ⟨seconds, nanos, hseconds, hnanos⟩ := t
  rw [hbuild, ofParts?_eq_none_iff]
  simp only [brink, Total.mk.injEq]
  simp only [nanosPerSecond, UInt64.size] at hseconds hnanos ⊢
  omega

/-- A computation with a number is unreadable where the number does not fit, and nothing else comes
of that. -/
lemma word_bind_eq_iff {β : Type} {n : ℕ} {f : ℕ → Except Fault β} {r : Except Fault β}
    (hr : r ≠ .error .unreadable) : (word n >>= f) = r ↔ n < UInt64.size ∧ f n = r := by
  unfold word
  split
  · rename_i h
    exact ⟨fun hf => ⟨h, hf⟩, fun hf => hf.2⟩
  · rename_i h
    exact iff_of_false hr.symm fun hf => h hf.1

/-- Additions are checked: what does not fit is unreadable. -/
lemma add_ne_overflow : t.add s ≠ .error .overflow := by
  rw [Ne, add, word_bind_eq_iff (by simp), word_bind_eq_iff (by simp)]
  rintro ⟨-, -, h⟩
  split at h <;> cases h

/-- What an addition comes to that fits. -/
lemma add_eq_ok_iff : t.add s = .ok t' ↔
    t.nanos + s.nanos < UInt64.size ∧ s.seconds + carried (t.nanos + s.nanos) < UInt64.size ∧
      t.seconds + (s.seconds + carried (t.nanos + s.nanos)) = t'.seconds ∧
      kept (t.nanos + s.nanos) = t'.nanos := by
  rw [add, word_bind_eq_iff (by simp), word_bind_eq_iff (by simp)]
  refine and_congr_right fun _ => and_congr_right fun _ => ?_
  obtain ⟨seconds, nanos, hseconds, hnanos⟩ := t'
  split
  · simp
  · rename_i hlarge
    refine iff_of_false (by simp) ?_
    rintro ⟨rfl, -⟩
    exact hlarge hseconds

/-- Where the duration is put together at the end, spans are just added. -/
lemma plus_false : t.plus false s = t.add s := by
  unfold plus
  cases t.add s <;> rfl

/-- Where the duration is built anew behind each part, an addition overflows exactly if it comes to
the greatest sum. -/
lemma plus_true_eq_overflow_iff : t.plus true s = .error .overflow ↔ t.add s = .ok brink := by
  unfold plus
  rw [bind_eq_error_iff, or_iff_right add_ne_overflow]
  simp only [if_true, bind_pure_comp, map_eq_error_iff, build_eq_overflow_iff]
  exact ⟨fun ⟨_, hadd, hsum⟩ => hsum ▸ hadd, fun hadd => ⟨_, hadd, rfl⟩⟩

/-- No addition behind which the duration has been built anew comes to the greatest sum. -/
lemma ne_brink_of_plus_true (h : t.plus true s = .ok t') : t' ≠ brink := by
  unfold plus at h
  obtain ⟨sum, -, h⟩ := bind_eq_ok_iff.1 h
  rw [if_pos rfl] at h
  obtain ⟨d, -, h⟩ := bind_eq_ok_iff.1 h
  exact Except.ok.inj h ▸ total_ne_brink d

/-- An addition comes to the greatest sum exactly where it makes the whole seconds the greatest
number there is, and the nanoseconds exactly a second. Behind a carry less than a second would be
left. -/
lemma add_eq_brink_iff : t.add s = .ok brink ↔
    t.seconds + s.seconds + 1 = UInt64.size ∧ t.nanos + s.nanos = nanosPerSecond := by
  rw [add_eq_ok_iff]
  by_cases hcarry : nanosPerSecond < t.nanos + s.nanos
  · simp only [brink, carried, kept, if_pos hcarry]
    simp only [nanosPerSecond, UInt64.size] at hcarry ⊢
    omega
  · simp only [brink, carried, kept, if_neg hcarry]
    simp only [nanosPerSecond, UInt64.size] at hcarry ⊢
    omega

end Total

/-! ## Parts -/

/-- The parts of a text spill. -/
inductive Parts.Spills (p : Parts) : Bool → Prop where
  /-- The duration is built anew behind each part, and one of the additions comes to the greatest
  seconds and an exact second of nanoseconds. -/
  | onTheWay {front back : List Span} {s : Span} {t : Total}
      (spans_eq : p.spans = front ++ s :: back)
      (adds : front.foldlM (Total.plus true) .zero = .ok t)
      (seconds_eq : t.seconds + s.seconds + 1 = UInt64.size)
      (nanos_eq : t.nanos + s.nanos = nanosPerSecond) : p.Spills true
  /-- The duration is built at the end of a text that can be read, and the sum of all parts is the
  greatest there is. -/
  | atTheEnd (isWhole : p.isWhole = true)
      (adds : p.spans.foldlM Total.add .zero = .ok Total.brink) : p.Spills false

/-- **Adding up overflows exactly where the parts spill.**

**Proof sketch.** Where the duration is built anew behind each part, adding up overflows at a span,
behind others that it gets through; the last sum is then no longer the greatest, so that the end
adds nothing. Where it is built once, additions do not overflow and only the end can. -/
theorem Parts.total_eq_overflow_iff {p : Parts} :
    p.total rebuilds = .error .overflow ↔ p.Spills rebuilds := by
  rw [Parts.total, bind_eq_error_iff]
  cases rebuilds with
  | true =>
    rw [foldlM_eq_error_iff]
    constructor
    · rintro (⟨front, s, back, t, hspans, hadds, hplus⟩ | ⟨t, hadds, hend⟩)
      · obtain ⟨hseconds, hnanos⟩ :=
          Total.add_eq_brink_iff.1 (Total.plus_true_eq_overflow_iff.1 hplus)
        exact .onTheWay hspans hadds hseconds hnanos
      · split at hend
        · refine absurd (Total.build_eq_overflow_iff.1 hend) ?_
          exact foldlM_induction (· ≠ Total.brink) (by decide)
            (fun _ _ _ _ hplus => Total.ne_brink_of_plus_true hplus) hadds
        · cases hend
    · rintro ⟨hspans, hadds, hseconds, hnanos⟩
      exact .inl ⟨_, _, _, _, hspans, hadds,
        Total.plus_true_eq_overflow_iff.2 (Total.add_eq_brink_iff.2 ⟨hseconds, hnanos⟩)⟩
  | false =>
    have hplus : Total.plus false = Total.add := funext fun _ => funext fun _ => Total.plus_false
    rw [hplus, foldlM_eq_error_iff]
    constructor
    · rintro (⟨_, _, _, _, -, -, hadd⟩ | ⟨t, hadds, hend⟩)
      · exact absurd hadd Total.add_ne_overflow
      · split at hend
        · rename_i hwhole
          obtain rfl := Total.build_eq_overflow_iff.1 hend
          exact .atTheEnd hwhole hadds
        · cases hend
    · rintro (_ | ⟨hwhole, hadds⟩)
      exact .inr ⟨_, hadds, (if_pos hwhole).trans (Total.build_eq_overflow_iff.2 rfl)⟩

end Duration

end Regroup
