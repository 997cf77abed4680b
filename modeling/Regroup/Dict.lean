/-!
# Dictionaries in insertion order

A finite map that remembers the order in which its keys first came in. Replacing the value of a
key leaves the key where it is, and a removed key that comes back goes to the end. The extra
headers of a message, the groups of a store, the channels of a network and the registered locks
are all such dictionaries.

## Main definitions

* `Regroup.Dict` — the entries, each key once.
* `Regroup.Dict.get?`, `Regroup.Dict.insert`, `Regroup.Dict.erase` — look-up, update, removal.
* `Regroup.Dict.agrees` — equality of two dictionaries as maps, whatever their order.

## Main statements

* `Regroup.Dict.get?_insert`, `Regroup.Dict.get?_erase` — what each update does to the look-up.
* `Regroup.Dict.keys_insert` — a new key goes to the end, a known one stays in its place.
-/

namespace Regroup

/-- A finite map whose entries keep the order in which their keys were first inserted. -/
structure Dict (κ ν : Type) where
  /-- The entries, the key inserted first in front. -/
  entries : List (κ × ν)
  /-- No key occurs twice. -/
  nodup_keys : (entries.map Prod.fst).Nodup
  deriving DecidableEq

namespace Dict

variable {κ ν : Type}

/-! ## Views -/

/-- The dictionary without entries. -/
def empty : Dict κ ν := ⟨[], List.nodup_nil⟩

instance : Inhabited (Dict κ ν) := ⟨empty⟩

/-- The keys in insertion order. -/
def keys (d : Dict κ ν) : List κ := d.entries.map Prod.fst

/-- The values, in the order of their keys. -/
def values (d : Dict κ ν) : List ν := d.entries.map Prod.snd

/-- The number of keys. -/
def size (d : Dict κ ν) : Nat := d.entries.length

/-- Whether there is no entry. -/
def isEmpty (d : Dict κ ν) : Bool := d.entries.isEmpty

variable [DecidableEq κ]

/-- The value of the first entry whose key is `k`. -/
def lookup (k : κ) : List (κ × ν) → Option ν
  | [] => none
  | (k', v) :: rest => if k' = k then some v else lookup k rest

/-- The value stored under a key. -/
def get? (d : Dict κ ν) (k : κ) : Option ν := lookup k d.entries

/-- Whether the key has an entry. -/
def contains (d : Dict κ ν) (k : κ) : Bool := (d.get? k).isSome

/-! ## Updates -/

/-- Sets the value of `k` where its entry stands, or appends an entry for it. -/
def put (k : κ) (v : ν) : List (κ × ν) → List (κ × ν)
  | [] => [(k, v)]
  | (k', v') :: rest => if k' = k then (k, v) :: rest else (k', v') :: put k v rest

/-- Setting a value keeps the keys, or appends the new one to them. -/
theorem keys_put (k : κ) (v : ν) (l : List (κ × ν)) :
    (put k v l).map Prod.fst =
      if k ∈ l.map Prod.fst then l.map Prod.fst else l.map Prod.fst ++ [k] := by
  induction l with
  | nil => simp [put]
  | cons e rest ih =>
    obtain ⟨k', v'⟩ := e
    by_cases h : k' = k
    · simp [put, h]
    · have h' : ¬ k = k' := fun e => h e.symm
      by_cases hm : k ∈ rest.map Prod.fst
      · simp only [put, h, if_false, List.map_cons, ih, hm, if_true, List.mem_cons, h', false_or]
      · simp only [put, h, if_false, List.map_cons, ih, hm, List.mem_cons, h', false_or,
          List.cons_append]

private theorem nodup_put (k : κ) (v : ν) {l : List (κ × ν)} (h : (l.map Prod.fst).Nodup) :
    ((put k v l).map Prod.fst).Nodup := by
  rw [keys_put]
  split
  · exact h
  · rename_i hk
    rw [List.nodup_append]
    refine ⟨h, by simp, ?_⟩
    intro a ha b hb
    simp only [List.mem_singleton] at hb
    subst hb
    exact fun e => hk (e ▸ ha)

/-- Sets the value of a key; a new key goes to the end. -/
def insert (d : Dict κ ν) (k : κ) (v : ν) : Dict κ ν :=
  ⟨put k v d.entries, nodup_put k v d.nodup_keys⟩

/-- Removes the entry of a key. -/
def erase (d : Dict κ ν) (k : κ) : Dict κ ν :=
  ⟨d.entries.filter (fun e => e.1 ≠ k), (List.filter_sublist.map Prod.fst).nodup d.nodup_keys⟩

/-- Whether two dictionaries give every key the same value, whatever the order of their entries:
they have equally many keys, and each key of the one has the same value in the other. -/
def agrees [DecidableEq ν] (a b : Dict κ ν) : Bool :=
  a.size == b.size && a.entries.all fun e => b.get? e.1 == some e.2

/-! ## Laws -/

@[simp] theorem get?_empty (k : κ) : (empty : Dict κ ν).get? k = none := rfl

private theorem lookup_put (k k' : κ) (v : ν) (l : List (κ × ν)) :
    lookup k' (put k v l) = if k = k' then some v else lookup k' l := by
  induction l with
  | nil => simp [put, lookup]
  | cons e rest ih =>
    obtain ⟨k₀, v₀⟩ := e
    by_cases h : k₀ = k
    · subst h
      by_cases hk : k₀ = k' <;> simp [put, lookup, hk]
    · by_cases hk : k₀ = k'
      · subst hk
        simp [put, lookup, h, Ne.symm h]
      · simp [put, lookup, h, hk, ih]

/-- After an insertion the key has the new value, and every other key the one it had. -/
theorem get?_insert (d : Dict κ ν) (k k' : κ) (v : ν) :
    (d.insert k v).get? k' = if k = k' then some v else d.get? k' :=
  lookup_put k k' v d.entries

@[simp] theorem get?_insert_self (d : Dict κ ν) (k : κ) (v : ν) :
    (d.insert k v).get? k = some v := by simp [get?_insert]

private theorem lookup_filter (k k' : κ) (l : List (κ × ν)) :
    lookup k' (l.filter (fun e => e.1 ≠ k)) = if k = k' then none else lookup k' l := by
  induction l with
  | nil => simp [lookup]
  | cons e rest ih =>
    obtain ⟨k₀, v₀⟩ := e
    by_cases h : k₀ = k
    · subst h
      by_cases hk : k₀ = k' <;> simp_all [lookup]
    · by_cases hk : k₀ = k'
      · subst hk
        simp [lookup, h, Ne.symm h]
      · simp_all [lookup]

/-- After a removal the key is absent, and every other key has the value it had. -/
theorem get?_erase (d : Dict κ ν) (k k' : κ) :
    (d.erase k).get? k' = if k = k' then none else d.get? k' :=
  lookup_filter k k' d.entries

@[simp] theorem get?_erase_self (d : Dict κ ν) (k : κ) : (d.erase k).get? k = none := by
  simp [get?_erase]

/-- A known key stays in its place; a new one goes to the end. -/
theorem keys_insert (d : Dict κ ν) (k : κ) (v : ν) :
    (d.insert k v).keys = if k ∈ d.keys then d.keys else d.keys ++ [k] :=
  keys_put k v d.entries

private theorem lookup_isSome_iff (k : κ) (l : List (κ × ν)) :
    (lookup k l).isSome = true ↔ k ∈ l.map Prod.fst := by
  induction l with
  | nil => simp [lookup]
  | cons e rest ih =>
    obtain ⟨k₀, v₀⟩ := e
    by_cases h : k₀ = k
    · simp [lookup, h]
    · have h' : ¬ k = k₀ := fun e => h e.symm
      simp [lookup, h, h', ih]

/-- The keys are exactly what the look-up finds. -/
theorem contains_iff (d : Dict κ ν) (k : κ) : d.contains k = true ↔ k ∈ d.keys :=
  lookup_isSome_iff k d.entries

end Dict

end Regroup
