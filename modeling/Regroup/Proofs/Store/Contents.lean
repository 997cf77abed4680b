import Mathlib.Algebra.Order.Group.Multiset
import Regroup.Proofs.Dict.Agreement
import Regroup.Proofs.Store.Counter

/-!
# What a store buffers

All messages that the groups of a store buffer, as a multiset. The look-up alone decides it: two
stores that agree in the look-up off one key differ by what they buffer for that key.

## Main definitions

* `Regroup.Store.contents` — the messages that all groups buffer together.
* `Regroup.Store.removeEach` — the store without the groups of some keys.

## Main results

* `Regroup.Dict.total_congr` — dictionaries with the same look-up have the same sums.
* `Regroup.Store.contents_add_of_frame` — what a change at one key does to what is buffered.
* `Regroup.Store.remove_snd` — what a removal takes away, whether there is a group or not.
* `Regroup.Store.Valid.buffered_removeEach` — what several removals take off the counter.
-/

namespace Regroup

/-! ## Sums and look-up -/

namespace Dict

variable {κ ν M : Type} [AddCommMonoid M] [DecidableEq κ]

/-- Dictionaries with the same look-up have the same sums. -/
theorem total_congr {d d' : Dict κ ν} (h : ∀ k, d.get? k = d'.get? k) (f : ν → M) :
    d.total f = d'.total f := by
  have hperm : d.entries.Perm d'.entries := (d.perm_entries_iff d').2 h
  exact ((hperm.map Prod.snd).map f).sum_eq

/-- Dictionaries whose look-ups agree off one key have sums that differ by the values of that
key. -/
theorem total_add_of_frame {d d' : Dict κ ν} {key : κ}
    (h : ∀ k, key ≠ k → d.get? k = d'.get? k) (f : ν → M) :
    d.total f + ((d'.get? key).map f).getD 0 = d'.total f + ((d.get? key).map f).getD 0 := by
  have herase : (d.erase key).total f = (d'.erase key).total f := by
    refine total_congr (fun k => ?_) f
    rw [get?_erase, get?_erase]
    split
    · rfl
    · rename_i hk
      exact h k hk
  rw [← d.total_erase f key, ← d'.total_erase f key, herase, add_right_comm]

end Dict

/-! ## Messages -/

namespace Store

/-- The messages that all groups buffer together. -/
def contents (s : Store) : Multiset Message :=
  s.groups.total fun g => (g.messages : Multiset Message)

/-- What the groups of two stores buffer that agree off one key differs by what is buffered for that
key. -/
theorem contents_add_of_frame (s s' : Store) (key : Key)
    (h : ∀ k, key ≠ k → s.get? k = s'.get? k) :
    s.contents + (s'.list key : Multiset Message) =
      s'.contents + (s.list key : Multiset Message) := by
  have hlist : ∀ s : Store, (s.list key : Multiset Message) =
      ((s.groups.get? key).map fun g => (g.messages : Multiset Message)).getD 0 := by
    intro s
    unfold list get?
    cases s.groups.get? key <;> rfl
  rw [hlist, hlist]
  exact Dict.total_add_of_frame h _

/-- What is listed for a key is what its group buffers. -/
lemma list_of_get? {s : Store} {key : Key} {g : Group} (h : s.get? key = some g) :
    s.list key = g.messages := by
  rw [list, h]
  rfl

/-- For a key without a group nothing is listed. -/
lemma list_of_absent {s : Store} {key : Key} (h : s.get? key = none) : s.list key = [] := by
  rw [list, h]
  rfl

/-! ## Removal -/

/-- Removing a group takes it and its messages away, if there is one. -/
lemma remove_snd (s : Store) (key : Key) :
    (s.remove key).2 =
      { s with groups := s.groups.erase key, buffered := s.buffered - (s.list key).length } := by
  unfold remove
  rw [length_list]
  cases h : s.get? key with
  | some g => rfl
  | none =>
    have herase : s.groups.erase key = s.groups := by
      have hentries : s.groups.entries.filter (fun e => e.1 ≠ key) = s.groups.entries := by
        rw [List.filter_eq_self]
        rintro ⟨k, g⟩ hmem
        rw [Dict.mem_entries_iff] at hmem
        rw [decide_eq_true_eq]
        rintro rfl
        rw [get?, hmem] at h
        simp at h
      simp only [Dict.erase, hentries]
    rw [herase]
    rfl

/-- Removing a group takes its messages off the counter. -/
lemma Valid.buffered_remove {s : Store} (hv : s.Valid) (key : Key) :
    (s.remove key).2.buffered + (s.list key).length = s.buffered := by
  rw [remove_snd]
  refine Nat.sub_add_cancel ?_
  rw [length_list]
  cases h : s.get? key with
  | none => exact Nat.zero_le _
  | some g => exact hv.length_le h

/-- Removing a group does not change what is listed for the other keys. -/
lemma list_remove_of_ne {k : Key} (h : k ≠ key) (s : Store) :
    (s.remove k).2.list key = s.list key := by
  unfold list
  rw [get?_remove_eq, if_neg h]

/-- It does not matter which of two groups is removed first. -/
lemma remove_comm (s : Store) (k k' : Key) :
    ((s.remove k).2.remove k').2 = ((s.remove k').2.remove k).2 := by
  by_cases hk : k = k'
  · rw [hk]
  · have hgroups : (s.groups.erase k).erase k' = (s.groups.erase k').erase k := by
      simp only [Dict.erase, Dict.mk.injEq]
      exact List.filter_comm _ _ _
    rw [remove_snd _ k', list_remove_of_ne hk, remove_snd s k, remove_snd _ k,
      list_remove_of_ne (Ne.symm hk), remove_snd s k', hgroups, Nat.sub_right_comm]

/-- The store without the groups of some keys. -/
def removeEach (s : Store) (keys : List Key) : Store :=
  keys.foldl (fun s key => (s.remove key).2) s

/-- It does not matter in which order groups are removed. -/
lemma removeEach_perm {keys keys' : List Key} (h : keys.Perm keys') (s : Store) :
    s.removeEach keys = s.removeEach keys' :=
  h.foldl_eq' (fun _ _ _ _ s => remove_comm s _ _) s

/-- Removing the groups of distinct keys takes all their messages off the counter. -/
lemma Valid.buffered_removeEach {s : Store} (hv : s.Valid) {keys : List Key}
    (hnodup : keys.Nodup) :
    (s.removeEach keys).buffered + (keys.flatMap s.list).length = s.buffered := by
  induction keys generalizing s with
  | nil => rfl
  | cons key keys ih =>
    obtain ⟨hkey, hkeys⟩ := List.nodup_cons.1 hnodup
    have hlist : keys.flatMap (s.remove key).2.list = keys.flatMap s.list := by
      refine List.flatMap_congr fun k hk => list_remove_of_ne ?_ s
      rintro rfl
      exact hkey hk
    have hrest := ih (hv.remove key) hkeys
    rw [hlist] at hrest
    rw [List.flatMap_cons, List.length_append, ← hv.buffered_remove key, ← hrest]
    show (removeEach (s.remove key).2 keys).buffered + _ = _
    omega

end Store

end Regroup
