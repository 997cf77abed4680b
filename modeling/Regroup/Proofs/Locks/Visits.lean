import Mathlib.Data.List.Basic
import Mathlib.Data.List.Induction
import Mathlib.Data.List.Nodup
import Mathlib.Order.BooleanAlgebra.Set
import Regroup.LockTable

/-!
# Which keys stay registered

A caller visits a list of keys, one inside the other. While it holds them each is registered with
one caller. A visit that ends in order takes its keys out of the registry again, whatever earlier
visits have left there. A visit that breaks off leaves all its keys behind, and a key that was left
behind stays registered, without any caller, until a later visit to it ends in order.

## Main definitions

* `Regroup.LockTable.Visit` — the keys of a nest, no key twice, and how its work ends.
* `Regroup.LockTable.visitAll` — visits made one after the other.
* `Regroup.LockTable.inside` — the registry while keys are held.
* `Regroup.LockTable.Stands` — which keys are registered, and with how many callers.
* `Regroup.LockTable.GivenUp` — that the last visit to a key broke off.

## Main results

* `Regroup.LockTable.Stands.nest` — what a nest makes of the registry.
* `Regroup.LockTable.registered_iff_of_visits` — between visits exactly the keys given up are
  registered.
-/

namespace Regroup.LockTable

variable {t : LockTable} {held keys : List Key} {stale : Set Key} {key : Key}

/-! ## One key -/

/-- Entering a key adds a caller to it and changes no other key. -/
lemma get?_enter (t : LockTable) (key k : Key) :
    (t.enter key).callers.get? k =
      if key = k then some (t.callersOf key + 1) else t.callers.get? k :=
  t.callers.get?_insert key k _

/-- Abandoning a key takes a caller from it, keeps it registered and changes no other key. -/
lemma get?_abandon (t : LockTable) (key k : Key) :
    (t.abandon key).callers.get? k =
      if key = k then some (t.callersOf key - 1) else t.callers.get? k :=
  t.callers.get?_insert key k _

/-- The only caller of a key that leaves it takes it out of the registry and changes no other
key. -/
lemma get?_leave (h : t.callersOf key ≤ 1) (k : Key) :
    (t.leave key).callers.get? k = if key = k then none else t.callers.get? k := by
  rw [leave, if_pos h]
  exact t.callers.get?_erase key k

/-! ## How a registry stands -/

/-- The keys of a list are held, each by one caller. Of the other keys some are stale, registered
without a caller, and the rest are not registered. -/
structure Stands (t : LockTable) (held : List Key) (stale : Set Key) : Prop where
  of_held : ∀ k ∈ held, t.callers.get? k = some 1
  of_stale : ∀ k ∉ held, k ∈ stale → t.callers.get? k = some 0
  of_free : ∀ k ∉ held, k ∉ stale → t.callers.get? k = none

/-- In an empty registry no key is held, and none is stale. -/
lemma stands_empty : empty.Stands [] ∅ where
  of_held := by simp
  of_stale := by simp
  of_free k _ _ := Dict.get?_empty k

namespace Stands

/-- A key that is not held has no caller, stale or not. -/
lemma callersOf_eq_zero (h : t.Stands held stale) (hk : key ∉ held) : t.callersOf key = 0 := by
  by_cases hs : key ∈ stale
  · rw [callersOf, h.of_stale key hk hs, Option.getD_some]
  · rw [callersOf, h.of_free key hk hs, Option.getD_none]

/-- A held key has one caller. -/
lemma callersOf_eq_one (h : t.Stands held stale) (hk : key ∈ held) : t.callersOf key = 1 := by
  rw [callersOf, h.of_held key hk, Option.getD_some]

/-- Where no key is held, exactly the stale ones are registered. -/
lemma contains_iff (h : t.Stands [] stale) (key : Key) :
    t.callers.contains key = true ↔ key ∈ stale := by
  rw [Dict.contains]
  by_cases hs : key ∈ stale
  · simp [h.of_stale key List.not_mem_nil hs, hs]
  · simp [h.of_free key List.not_mem_nil hs, hs]

/-- A key that is entered is held. -/
lemma enter (h : t.Stands held stale) (hk : key ∉ held) :
    (t.enter key).Stands (held ++ [key]) stale := by
  have hzero := h.callersOf_eq_zero hk
  constructor <;> intro k
  · intro hmem
    rw [get?_enter]
    split
    · rw [hzero]
    · rename_i hne
      exact h.of_held k (by simpa [Ne.symm hne] using hmem)
  · intro hmem hs
    rw [List.mem_append, List.mem_singleton, not_or] at hmem
    rw [get?_enter, if_neg (Ne.symm hmem.2)]
    exact h.of_stale k hmem.1 hs
  · intro hmem hs
    rw [List.mem_append, List.mem_singleton, not_or] at hmem
    rw [get?_enter, if_neg (Ne.symm hmem.2)]
    exact h.of_free k hmem.1 hs

/-- A key that is left in order is not registered any more. -/
lemma leave (h : t.Stands (held ++ [key]) stale) (hk : key ∉ held) :
    (t.leave key).Stands held (stale \ {key}) := by
  have hone : t.callersOf key ≤ 1 := (h.callersOf_eq_one (by simp)).le
  constructor <;> intro k
  · intro hmem
    rw [get?_leave hone, if_neg fun e : key = k => hk (e ▸ hmem)]
    exact h.of_held k (List.mem_append_left _ hmem)
  · rintro hmem ⟨hs, hne⟩
    rw [get?_leave hone, if_neg (Ne.symm hne)]
    exact h.of_stale k (by simpa [hmem] using hne) hs
  · intro hmem hs
    rw [get?_leave hone]
    split
    · rfl
    · rename_i hne
      exact h.of_free k (by simp [hmem, Ne.symm hne]) fun hin => hs ⟨hin, Ne.symm hne⟩

/-- A key that is abandoned is stale. -/
lemma abandon (h : t.Stands (held ++ [key]) stale) (hk : key ∉ held) :
    (t.abandon key).Stands held (insert key stale) := by
  have hone : t.callersOf key = 1 := h.callersOf_eq_one (by simp)
  constructor <;> intro k
  · intro hmem
    rw [get?_abandon, if_neg fun e : key = k => hk (e ▸ hmem)]
    exact h.of_held k (List.mem_append_left _ hmem)
  · intro hmem hs
    rw [get?_abandon]
    split
    · rw [hone]
    · rename_i hne
      exact h.of_stale k (by simp [hmem, Ne.symm hne])
        ((Set.mem_insert_iff.1 hs).resolve_left (Ne.symm hne))
  · intro hmem hs
    rw [Set.mem_insert_iff, not_or] at hs
    rw [get?_abandon, if_neg (Ne.symm hs.1)]
    exact h.of_free k (by simp [hmem, hs.1]) hs.2

end Stands

/-! ## Nests -/

/-- The registry while the keys are held, entered from left to right. -/
def inside (t : LockTable) (keys : List Key) : LockTable := keys.foldl enter t

/-- A caller goes out of a key, in the way that its work has ended. -/
def exit (ending : Ending) (t : LockTable) (key : Key) : LockTable :=
  match ending with
  | .returned => t.leave key
  | .brokeOff => t.abandon key

/-- The keys that are stale behind a nest: one that ends in order cleans up its keys, one that
breaks off leaves them all behind. -/
def Ending.staleBehind (ending : Ending) (stale : Set Key) (keys : List Key) : Set Key :=
  match ending with
  | .returned => stale \ {k | k ∈ keys}
  | .brokeOff => stale ∪ {k | k ∈ keys}

/-- A nest enters its first key, lets the others be nested in it, and goes out of it. -/
lemma nest_cons_snd (ending : Ending) (t : LockTable) (key : Key) (keys : List Key) :
    (nest ending t (key :: keys)).2 = exit ending (nest ending (t.enter key) keys).2 key := by
  cases ending <;> rfl

/-- Keys are entered in front of those that are nested in them, and left behind these in the
opposite order. -/
lemma nest_append_snd (ending : Ending) (t : LockTable) (front rest : List Key) :
    (nest ending t (front ++ rest)).2 =
      front.foldr (fun key t => exit ending t key) (nest ending (t.inside front) rest).2 := by
  induction front generalizing t with
  | nil => rfl
  | cons key front ih =>
    rw [List.cons_append, nest_cons_snd, ih (t.enter key)]
    rfl

/-- A key that is entered behind other keys is none of them. -/
private lemma notMem_of_nodup (hd : (held ++ key :: keys).Nodup) : key ∉ held := fun hin =>
  (List.nodup_cons.1 (List.nodup_middle.1 hd)).1 (List.mem_append_left keys hin)

namespace Stands

/-- Keys that are entered one inside the other are all held. -/
lemma inside (h : t.Stands held stale) (hd : (held ++ keys).Nodup) :
    (t.inside keys).Stands (held ++ keys) stale := by
  induction keys generalizing t held with
  | nil => simpa [LockTable.inside] using h
  | cons key keys ih =>
    have hk := notMem_of_nodup hd
    rw [List.append_cons] at hd ⊢
    exact ih (h.enter hk) hd

/-- Behind a nest the same keys are held as before it, and what is stale follows from how the nest
has ended.

**Proof sketch.** Induction on the keys: the first is entered, the rest are nested in it, and it is
left or abandoned. -/
theorem nest (h : t.Stands held stale) (hd : (held ++ keys).Nodup) (ending : Ending) :
    (nest ending t keys).2.Stands held (ending.staleBehind stale keys) := by
  induction keys generalizing t held with
  | nil =>
    have hset : ending.staleBehind stale [] = stale := by
      cases ending <;> simp [Ending.staleBehind]
    rw [hset]
    exact h
  | cons key keys ih =>
    have hk := notMem_of_nodup hd
    rw [List.append_cons] at hd
    have hinner := ih (h.enter hk) hd
    rw [nest_cons_snd]
    cases ending with
    | returned =>
      have hset : Ending.returned.staleBehind stale (key :: keys) =
          Ending.returned.staleBehind stale keys \ {key} := by
        ext k
        simp only [Ending.staleBehind, Set.mem_sdiff, Set.mem_ofPred_eq, List.mem_cons, not_or,
          Set.mem_singleton_iff]
        tauto
      rw [hset]
      exact hinner.leave hk
    | brokeOff =>
      have hset : Ending.brokeOff.staleBehind stale (key :: keys) =
          insert key (Ending.brokeOff.staleBehind stale keys) := by
        ext k
        simp only [Ending.staleBehind, Set.mem_union, Set.mem_ofPred_eq, List.mem_cons,
          Set.mem_insert_iff]
        tauto
      rw [hset]
      exact hinner.abandon hk

end Stands

/-! ## Visits -/

/-- A visit enters keys one inside the other, none of them twice, and its work ends in order or
breaks off. -/
structure Visit where
  /-- The keys, the outermost first. -/
  keys : List Key
  /-- No key is entered by a caller that holds it. -/
  nodup : keys.Nodup
  /-- How the work in the innermost key ends. -/
  ending : Ending

/-- The registry behind a visit. -/
def visit (t : LockTable) (v : Visit) : LockTable := (t.nest v.ending v.keys).2

/-- The registry behind visits made one after the other. -/
def visitAll (t : LockTable) (vs : List Visit) : LockTable := vs.foldl visit t

/-- A key has been given up if the last visit to it broke off. -/
def GivenUp (vs : List Visit) (key : Key) : Prop :=
  ∃ front v rest, vs = front ++ v :: rest ∧ key ∈ v.keys ∧ v.ending = .brokeOff ∧
    ∀ later ∈ rest, key ∉ later.keys

/-- Without visits nothing is given up. -/
lemma not_givenUp_nil (key : Key) : ¬ GivenUp [] key := by
  rintro ⟨front, v, rest, he, -⟩
  simp at he

/-- Whether a key is given up is decided by the last visit, if that visit enters it. -/
lemma givenUp_concat (vs : List Visit) (v : Visit) (key : Key) :
    GivenUp (vs ++ [v]) key ↔
      (key ∈ v.keys ∧ v.ending = .brokeOff) ∨ (key ∉ v.keys ∧ GivenUp vs key) := by
  constructor
  · rintro ⟨front, v', rest, he, hin, hbroke, hlater⟩
    rcases List.eq_nil_or_concat' rest with rfl | ⟨init, last, rfl⟩
    · obtain ⟨-, hlast⟩ := List.append_inj' he rfl
      obtain rfl := List.singleton_inj.1 hlast
      exact .inl ⟨hin, hbroke⟩
    · rw [← List.cons_append, ← List.append_assoc] at he
      obtain ⟨rfl, hlast⟩ := List.append_inj' he rfl
      obtain rfl := List.singleton_inj.1 hlast
      exact .inr ⟨hlater v (by simp),
        front, v', init, rfl, hin, hbroke, fun later hl => hlater later (by simp [hl])⟩
  · rintro (⟨hin, hbroke⟩ | ⟨hnot, front, v', rest, rfl, hin, hbroke, hlater⟩)
    · exact ⟨vs, v, [], rfl, hin, hbroke, by simp⟩
    · refine ⟨front, v', rest ++ [v], by simp, hin, hbroke, fun later hl => ?_⟩
      rcases List.mem_append.1 hl with hl | hl
      · exact hlater later hl
      · rwa [List.mem_singleton.1 hl]

/-- Between visits no key is held, and the keys given up are stale.

**Proof sketch.** Induction on the visits, the last one first. It cleans up its keys or gives them
all up, and leaves the others as they were. -/
theorem stands_visitAll (vs : List Visit) : (empty.visitAll vs).Stands [] {k | GivenUp vs k} := by
  induction vs using List.reverseRecOn with
  | nil =>
    have hset : {k | GivenUp [] k} = ∅ := Set.eq_empty_of_forall_notMem not_givenUp_nil
    rw [hset]
    exact stands_empty
  | append_singleton vs v ih =>
    have hset : {k | GivenUp (vs ++ [v]) k} = v.ending.staleBehind {k | GivenUp vs k} v.keys := by
      ext k
      rw [Set.mem_ofPred_eq, givenUp_concat]
      cases v.ending
      · simp [Ending.staleBehind, and_comm]
      · simp only [Ending.staleBehind, Set.mem_union, Set.mem_ofPred_eq]
        tauto
    rw [visitAll, List.foldl_append, hset]
    exact ih.nest v.nodup v.ending

/-- A registry is empty exactly if it contains no key. -/
lemma isEmpty_iff (t : LockTable) :
    t.isEmpty = true ↔ ∀ key, ¬ t.callers.contains key = true := by
  rw [isEmpty, Dict.isEmpty, List.isEmpty_iff]
  simp only [Dict.contains_iff, Dict.keys]
  rw [← List.eq_nil_iff_forall_not_mem, List.map_eq_nil_iff]

/-- **Between visits exactly the keys given up are registered**, those to which the last visit broke
off, and none of them has a caller. So nothing is registered exactly if nothing is given up. While a
visit holds keys each of them is registered with its one caller. Behind the part of a visit that
lies in one of its keys that key has no caller any more; but it is still registered if the work
broke off.

**Proof sketch.** How the registry stands between visits is known (`stands_visitAll`), and from that
how it stands at every point of the next visit (`Stands.inside`, `Stands.nest`). -/
theorem registered_iff_of_visits (vs : List Visit) :
    let t := empty.visitAll vs
    (∀ key, t.callers.contains key = true ↔ GivenUp vs key) ∧ (∀ key, t.callersOf key = 0) ∧
      (t.isEmpty = true ↔ ∀ key, ¬ GivenUp vs key) ∧
      ∀ (v : Visit) (front : List Key) (key : Key) (rest : List Key),
        v.keys = front ++ key :: rest →
        let behind := (nest v.ending (t.inside front) (key :: rest)).2
        t.visit v = front.foldr (fun k t => exit v.ending t k) behind ∧
          (∀ k ∈ front ++ [key], (t.inside (front ++ [key])).callers.get? k = some 1) ∧
          (∀ k ∈ front, behind.callers.get? k = some 1) ∧ behind.callersOf key = 0 ∧
          (behind.callers.contains key = true ↔ v.ending = .brokeOff) := by
  intro t
  have ht : t.Stands [] {k | GivenUp vs k} := stands_visitAll vs
  refine ⟨ht.contains_iff, fun key => ht.callersOf_eq_zero List.not_mem_nil, ?_, ?_⟩
  · simp only [t.isEmpty_iff, ht.contains_iff, Set.mem_ofPred_eq]
  · intro v front key rest hkeys behind
    have hd : (front ++ key :: rest).Nodup := hkeys ▸ v.nodup
    have hprefix : (front ++ [key]).Nodup :=
      hd.sublist ((List.sublist_append_left [key] rest).append_left front)
    have hfront : front.Nodup := hprefix.sublist (List.sublist_append_left front [key])
    have hbehind := (ht.inside hfront).nest hd v.ending
    have hkey : key ∉ front := notMem_of_nodup hd
    refine ⟨?_, (ht.inside hprefix).of_held, hbehind.of_held, hbehind.callersOf_eq_zero hkey, ?_⟩
    · rw [visit, hkeys]
      exact nest_append_snd v.ending t front (key :: rest)
    · rw [Dict.contains]
      cases hending : v.ending with
      | returned =>
        have hfree := hbehind.of_free key hkey (by simp [hending, Ending.staleBehind])
        simp [behind, hfree]
      | brokeOff =>
        have hstale := hbehind.of_stale key hkey (by simp [hending, Ending.staleBehind])
        simp [behind, hstale]

/-- A visit to two keys breaks off, and one to the second of them and a third does not. The first
key stays registered, the second is cleaned up. While the third is held a broken off visit to it
would leave it behind. -/
theorem registered_iff_of_visits_broken :
    let broken : Visit := ⟨["a", "b"], by decide, .brokeOff⟩
    let orderly : Visit := ⟨["b", "c"], by decide, .returned⟩
    let t := empty.visitAll [broken, orderly]
    t.callers.contains "a" = true ∧ t.callersOf "a" = 0 ∧ t.isEmpty = false ∧
      t.callers.contains "b" = false ∧ t.callers.contains "c" = false ∧
      (nest .brokeOff (t.inside ["b"]) ["c"]).2.callers.contains "c" = true ∧
      (nest .brokeOff (t.inside ["b"]) ["c"]).2.callersOf "c" = 0 := by
  intro broken orderly t
  obtain ⟨hcontains, hnone, hempty, hvisit⟩ := registered_iff_of_visits [broken, orderly]
  have ha : GivenUp [broken, orderly] "a" :=
    ⟨[], broken, [orderly], rfl, by decide, rfl, by decide⟩
  have hclean : ∀ key ∈ orderly.keys, ¬ GivenUp [broken, orderly] key := by
    intro key hkey hgiven
    rcases (givenUp_concat [broken] orderly key).1 hgiven with ⟨-, h⟩ | ⟨h, -⟩
    · exact absurd h (by decide)
    · exact h hkey
  obtain ⟨-, -, -, hnocaller, hstays⟩ :=
    hvisit ⟨["b", "c"], by decide, .brokeOff⟩ ["b"] "c" [] rfl
  refine ⟨(hcontains "a").2 ha, hnone "a", ?_, ?_, ?_, hstays.2 rfl, hnocaller⟩
  · exact Bool.eq_false_iff.2 fun h => hempty.1 h "a" ha
  · exact Bool.eq_false_iff.2 fun h => hclean "b" (by decide) ((hcontains "b").1 h)
  · exact Bool.eq_false_iff.2 fun h => hclean "c" (by decide) ((hcontains "c").1 h)

/-- Not only while a caller holds it is a key registered: a visit that breaks off leaves its key
behind, and the registry is not empty. -/
theorem not_forall_held_of_registered :
    ¬ ∀ (vs : List Visit) (key : Key), (empty.visitAll vs).callers.contains key = true →
      0 < (empty.visitAll vs).callersOf key := by
  intro hall
  have hheld := hall [⟨["a"], by decide, .brokeOff⟩] "a" (by decide)
  exact absurd hheld (by decide)

end Regroup.LockTable
