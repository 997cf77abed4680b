import Regroup.Proofs.Collector.Tracking

/-!
# Lifetimes one behind the other

Any calls divide into lifetimes of the group of a key, one behind the other. Each but the last ends
with a call that leaves the key without a group, and a call that finds no group and leaves none is a
lifetime of its own. So what is observed over calls is what is observed in one lifetime after the
other.

## Main definitions

* `Regroup.Collector.lifetimes` — the lifetimes that calls divide into.

## Main results

* `Regroup.Collector.lifetimes_induction` — what holds of no calls, and in front of other calls of a
  lifetime, holds of all calls.
* `Regroup.Collector.flatMap_lifetimes`, `Regroup.Collector.exists_of_mem_lifetimes` — the lifetimes
  divide the calls, and are lifetimes.
* `Regroup.Collector.collect_eq_flatMap` — what is observed over calls.
* `Regroup.Collector.flatMap_kept_sublist` — what is kept of what has joined.
-/

namespace Regroup

variable {σ : Type}

namespace Collector

variable (c : Collector) (t : Transport σ) (key : Key)

/-! ## Dividing calls -/

/-- Lifetimes with a call in front of them: if the call leaves the key with a group the first
lifetime begins with it, and if not it is a lifetime of its own. -/
def precede (w : World σ) (call : Call) :
    List (World σ × List Call) → List (World σ × List Call)
  | [] => [(w, [call])]
  | (w', life) :: lives =>
    if groupIn (c.perform t w call).world key = none then (w, [call]) :: (w', life) :: lives
    else (w, call :: life) :: lives

/-- The lifetimes of the group of the key that calls divide into, each with the world before it. -/
def lifetimes (w : World σ) : List Call → List (World σ × List Call)
  | [] => []
  | call :: calls => c.precede t key w call (lifetimes (c.perform t w call).world calls)

variable {c t key} {w : World σ}

/-- A call that leaves the key without a group is a lifetime of its own. -/
lemma precede_of_absent {call : Call} (h : groupIn (c.perform t w call).world key = none)
    (lives : List (World σ × List Call)) :
    c.precede t key w call lives = (w, [call]) :: lives := by
  unfold precede
  split
  · rfl
  · exact if_pos h

/-- Calls behind each of which but the last the key has a group are in one lifetime.

**Proof sketch.** Induction on these calls. If there is only one, the key has no group behind it, or
no calls follow. If there are more, the first lifetime behind the first of them is that of the
others, and it begins with the first. -/
private lemma lifetimes_append_of {life rest : List Call} (hne : life ≠ [])
    (hpresent : ∀ front call later, life = front ++ call :: later → later ≠ [] →
      groupIn (c.after t w (front ++ [call])) key ≠ none)
    (hgone : rest = [] ∨ groupIn (c.after t w life) key = none) :
    c.lifetimes t key w (life ++ rest) =
      (w, life) :: c.lifetimes t key (c.after t w life) rest := by
  induction life generalizing w with
  | nil => exact absurd rfl hne
  | cons call life ih =>
    show c.precede t key w call (c.lifetimes t key _ (life ++ rest)) = _
    by_cases hlife : life = []
    · subst hlife
      rcases hgone with rfl | hgone
      · rfl
      · exact precede_of_absent hgone _
    · have hfirst : groupIn (c.perform t w call).world key ≠ none :=
        hpresent [] call life rfl hlife
      have hlater : ∀ front call' later, life = front ++ call' :: later → later ≠ [] →
          groupIn (c.after t (c.perform t w call).world (front ++ [call'])) key ≠ none :=
        fun front call' later he => hpresent (call :: front) call' later (by rw [he]; rfl)
      rw [ih hlife hlater hgone, precede, if_neg hfirst]
      rfl

/-- A lifetime that is over, or with no calls behind it, is the first. -/
theorem lifetimes_append {life rest : List Call} (hl : c.Lifetime t key w life) (hne : life ≠ [])
    (hgone : rest = [] ∨ groupIn (c.after t w life) key = none) :
    c.lifetimes t key w (life ++ rest) = (w, life) :: c.lifetimes t key (c.after t w life) rest :=
  lifetimes_append_of hne hl.present hgone

/-- Calls begin with a lifetime, which is over or reaches to their end.

**Proof sketch.** Induction on the calls, the last one first. The last call prolongs the lifetime if
it is not over. -/
private lemma exists_first_lifetime (habsent : groupIn w key = none) {calls : List Call}
    (hne : calls ≠ []) :
    ∃ life rest, calls = life ++ rest ∧ life ≠ [] ∧ c.Lifetime t key w life ∧
      (rest = [] ∨ groupIn (c.after t w life) key = none) := by
  induction calls using List.reverseRecOn with
  | nil => exact absurd rfl hne
  | append_singleton front call ih =>
    by_cases hfront : front = []
    · subst hfront
      exact ⟨[call], [], rfl, by simp, (lifetime_nil habsent).concat (by simp) call, .inl rfl⟩
    · obtain ⟨life, rest, rfl, hlife, hl, hgone⟩ := ih hfront
      by_cases hend : groupIn (c.after t w life) key = none
      · exact ⟨life, rest ++ [call], by simp, hlife, hl, .inr hend⟩
      · obtain rfl := hgone.resolve_right hend
        refine ⟨life ++ [call], [], by simp, by simp, hl.concat (fun _ => hend) call, .inl rfl⟩

variable (c t key) in
/-- What holds of no calls, and of a lifetime and the calls behind it if it holds of those, holds of
all calls from where the key has no group. -/
theorem lifetimes_induction {P : World σ → List Call → Prop} (nil : ∀ w, P w [])
    (append : ∀ w life rest, c.Lifetime t key w life → life ≠ [] →
      (rest = [] ∨ groupIn (c.after t w life) key = none) → P (c.after t w life) rest →
        P w (life ++ rest))
    (habsent : groupIn w key = none) (calls : List Call) : P w calls := by
  generalize hn : calls.length = n
  induction n using Nat.strongRecOn generalizing w calls with
  | ind n ih =>
    by_cases hne : calls = []
    · rw [hne]
      exact nil w
    · obtain ⟨life, rest, rfl, hlife, hl, hgone⟩ := exists_first_lifetime habsent hne
      refine append w life rest hl hlife hgone ?_
      rcases hgone with rfl | hgone
      · exact nil _
      · refine ih rest.length ?_ hgone rest rfl
        have := List.length_pos_iff.2 hlife
        rw [List.length_append] at hn
        omega

/-! ## What the lifetimes are -/

/-- The lifetimes divide the calls. -/
theorem flatMap_lifetimes (habsent : groupIn w key = none) (calls : List Call) :
    (c.lifetimes t key w calls).flatMap (·.2) = calls := by
  refine lifetimes_induction c t key
    (P := fun w calls => (c.lifetimes t key w calls).flatMap (·.2) = calls) (fun _ => rfl) ?_
    habsent calls
  intro w life rest hl hne hgone ih
  rw [lifetimes_append hl hne hgone, List.flatMap_cons, ih]

/-- Each of them is a lifetime behind the calls before it. -/
theorem exists_of_mem_lifetimes (habsent : groupIn w key = none) {calls : List Call}
    {l : World σ × List Call} (h : l ∈ c.lifetimes t key w calls) :
    c.Lifetime t key l.1 l.2 ∧
      ∃ before rest, calls = before ++ l.2 ++ rest ∧ l.1 = c.after t w before := by
  refine lifetimes_induction c t key
    (P := fun w calls => l ∈ c.lifetimes t key w calls → c.Lifetime t key l.1 l.2 ∧
      ∃ before rest, calls = before ++ l.2 ++ rest ∧ l.1 = c.after t w before)
    (fun _ h => by simp [lifetimes] at h) ?_ habsent calls h
  intro w life rest hl hne hgone ih h
  rw [lifetimes_append hl hne hgone] at h
  rcases List.mem_cons.1 h with rfl | h
  · exact ⟨hl, [], rest, rfl, rfl⟩
  · obtain ⟨hlife, before, later, rfl, hw⟩ := ih h
    exact ⟨hlife, life ++ before, later, by simp, by rw [hw, after_append]⟩

/-- The store is valid before each of them. -/
lemma valid_of_mem_lifetimes (hv : w.holdings.store.Valid) (habsent : groupIn w key = none)
    {calls : List Call} {l : World σ × List Call} (h : l ∈ c.lifetimes t key w calls) :
    l.1.holdings.store.Valid := by
  obtain ⟨-, before, -, -, hw⟩ := exists_of_mem_lifetimes habsent h
  rw [hw]
  exact c.valid_after t hv before

/-- What is observed over calls is what is observed in one lifetime after the other. -/
theorem collect_eq_flatMap {α : Type} (f : World σ → Call → List α)
    (habsent : groupIn w key = none) (calls : List Call) :
    c.collect t f w calls =
      (c.lifetimes t key w calls).flatMap fun l => c.collect t f l.1 l.2 := by
  refine lifetimes_induction c t key (P := fun w calls => c.collect t f w calls =
    (c.lifetimes t key w calls).flatMap fun l => c.collect t f l.1 l.2) (fun _ => rfl) ?_
    habsent calls
  intro w life rest hl hne hgone ih
  rw [lifetimes_append hl hne hgone, List.flatMap_cons, collect_append, ih]

/-! ## What joins in them -/

/-- Messages join in one lifetime after the other. -/
lemma history_eq_flatMap (habsent : groupIn w key = none) (calls : List Call) :
    c.history t key w calls =
      (c.lifetimes t key w calls).flatMap fun l => c.history t key l.1 l.2 :=
  collect_eq_flatMap (c.accepted key) habsent calls

/-- What is kept in one lifetime after the other is some of what has joined, in the same order. -/
lemma flatMap_kept_sublist (habsent : groupIn w key = none) (calls : List Call) :
    ((c.lifetimes t key w calls).flatMap fun l => c.kept t key l.1 l.2).Sublist
      (c.history t key w calls) := by
  rw [history_eq_flatMap habsent]
  generalize c.lifetimes t key w calls = lives
  induction lives with
  | nil => exact .slnil
  | cons l lives ih => exact (List.filter_sublist).append ih

end Collector

end Regroup
