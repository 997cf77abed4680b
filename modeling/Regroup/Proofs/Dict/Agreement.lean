import Mathlib.Data.List.Nodup
import Mathlib.Data.List.Perm.Subperm
import Regroup.Dict

/-!
# Dictionaries as maps

What a dictionary says is decided by its look-up, and not by the order of its entries. To compare
two of them it is enough to compare their sizes and to look the entries of the one up in the other.

## Main results

* `Regroup.Dict.mem_entries_iff` — the entries are what the look-up finds.
* `Regroup.Dict.perm_entries_iff` — dictionaries with the same look-up have the same entries, up to
  their order.
* `Regroup.Dict.agrees_iff` — dictionaries are found equal exactly if they have the same look-up.
-/

namespace Regroup.Dict

variable {κ ν : Type}

/-- No entry occurs twice. -/
lemma nodup_entries (d : Dict κ ν) : d.entries.Nodup := d.nodup_keys.of_map

variable [DecidableEq κ]

/-- The entries are what the look-up finds. -/
lemma mem_entries_iff (d : Dict κ ν) (k : κ) (v : ν) : (k, v) ∈ d.entries ↔ d.get? k = some v := by
  have hlookup : ∀ l : List (κ × ν), (l.map Prod.fst).Nodup →
      ((k, v) ∈ l ↔ lookup k l = some v) := by
    intro l hl
    induction l with
    | nil => simp [lookup]
    | cons e rest ih =>
      obtain ⟨k', v'⟩ := e
      rw [List.map_cons, List.nodup_cons] at hl
      by_cases h : k' = k
      · -- no other entry has the key
        subst h
        have hrest : (k', v) ∉ rest := fun hmem => hl.1 (List.mem_map.2 ⟨_, hmem, rfl⟩)
        simp [lookup, hrest, eq_comm]
      · simp [lookup, h, Ne.symm h, ih hl.2]
  exact hlookup d.entries d.nodup_keys

/-- Dictionaries have the same entries, up to their order, exactly if they have the same look-up. -/
theorem perm_entries_iff (a b : Dict κ ν) :
    a.entries.Perm b.entries ↔ ∀ k, a.get? k = b.get? k := by
  rw [List.perm_ext_iff_of_nodup a.nodup_entries b.nodup_entries]
  constructor
  · intro h k
    ext v
    rw [← mem_entries_iff, ← mem_entries_iff, h]
  · rintro h ⟨k, v⟩
    rw [mem_entries_iff, mem_entries_iff, h]

/-- Dictionaries are found equal exactly if they give every key the same value.

**Proof sketch.** If every entry of the one is an entry of the other, the entries of the one are a
part of those of the other, because none occurs twice. There are as many of these, so they are the
same. -/
theorem agrees_iff [DecidableEq ν] (a b : Dict κ ν) :
    a.agrees b = true ↔ ∀ k, a.get? k = b.get? k := by
  simp only [agrees, size, Bool.and_eq_true, beq_iff_eq, List.all_eq_true]
  constructor
  · rintro ⟨hsize, hall⟩
    have hsub : a.entries ⊆ b.entries := fun e he => (b.mem_entries_iff e.1 e.2).2 (hall e he)
    have hpart : a.entries.Subperm b.entries := List.subperm_of_subset a.nodup_entries hsub
    exact (perm_entries_iff a b).1 (hpart.perm_of_length_le (Nat.le_of_eq hsize.symm))
  · intro h
    refine ⟨((perm_entries_iff a b).2 h).length_eq, fun e he => ?_⟩
    rw [← h]
    exact (a.mem_entries_iff e.1 e.2).1 he

end Regroup.Dict
