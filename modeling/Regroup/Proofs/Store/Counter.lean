import Regroup.Store
import Mathlib.Algebra.BigOperators.Group.List.Basic

/-!
# Look-up and counter of a store

What each operation of a store does to the look-up, and that the counter beside the groups stays
what it is meant to be, whatever group is put back. A collector only ever puts back groups that
have become smaller, so there the counter also stays within the capacity.

## Main definitions

* `Regroup.Dict.total` — the sum of a quantity over the values of a dictionary.
* `Regroup.Store.Balanced` — groups under their own keys, and a counter that counts what they
  buffer.
* `Regroup.Store.Valid` — a balanced store whose counter does not exceed the capacity.

## Main results

* `Regroup.Dict.total_insert`, `Regroup.Dict.total_erase` — how updates change a sum.
* `Regroup.Store.Balanced.obtain`, `Regroup.Store.Balanced.add`, `Regroup.Store.Balanced.replace`,
  `Regroup.Store.Balanced.remove` — each operation keeps a store balanced.
* `Regroup.Store.Valid.obtain`, `Regroup.Store.Valid.add`, `Regroup.Store.Valid.replace`,
  `Regroup.Store.Valid.remove` — each operation as a collector uses it keeps a store valid.
-/

namespace Regroup

/-! ## Sums over a dictionary -/

namespace Dict

variable {κ ν M : Type} [AddCommMonoid M]

/-- The sum of a quantity over the values. -/
def total (f : ν → M) (d : Dict κ ν) : M := (d.values.map f).sum

variable [DecidableEq κ]

/-- Where the key is not among the entries its look-up fails. -/
private lemma lookup_eq_none {k : κ} {l : List (κ × ν)} (h : k ∉ l.map Prod.fst) :
    lookup k l = none := by
  induction l with
  | nil => rfl
  | cons e rest ih =>
    simp only [List.map_cons, List.mem_cons, not_or] at h
    simp [lookup, Ne.symm h.1, ih h.2]

/-- Setting a value adds its quantity in place of the one that was there. -/
theorem total_insert (f : ν → M) (d : Dict κ ν) (k : κ) (v : ν) :
    (d.insert k v).total f + ((d.get? k).map f).getD 0 = d.total f + f v := by
  have hput : ∀ l : List (κ × ν),
      (((put k v l).map Prod.snd).map f).sum + ((lookup k l).map f).getD 0 =
        ((l.map Prod.snd).map f).sum + f v := by
    intro l
    induction l with
    | nil => simp [put, lookup]
    | cons e rest ih =>
      obtain ⟨k', v'⟩ := e
      by_cases h : k' = k
      · simp only [put, lookup, h, if_true, List.map_cons, List.sum_cons, Option.map_some,
          Option.getD_some]
        rw [add_comm (f v), add_assoc, add_comm (f v), ← add_assoc, add_comm _ (f v'), add_assoc]
      · simp only [put, lookup, h, if_false, List.map_cons, List.sum_cons]
        rw [add_assoc, ih, add_assoc]
  exact hput d.entries

/-- Removing a key takes its quantity away. -/
theorem total_erase (f : ν → M) (d : Dict κ ν) (k : κ) :
    (d.erase k).total f + ((d.get? k).map f).getD 0 = d.total f := by
  have hfilter : ∀ l : List (κ × ν), (l.map Prod.fst).Nodup →
      (((l.filter fun e => e.1 ≠ k).map Prod.snd).map f).sum + ((lookup k l).map f).getD 0 =
        ((l.map Prod.snd).map f).sum := by
    intro l hl
    induction l with
    | nil => simp [lookup]
    | cons e rest ih =>
      obtain ⟨k', v'⟩ := e
      simp only [List.map_cons, List.nodup_cons] at hl
      have ih' := ih hl.2
      by_cases h : k' = k
      · subst h
        rw [lookup_eq_none hl.1, Option.map_none, Option.getD_none, add_zero] at ih'
        simp only [ne_eq, decide_not, decide_true, Bool.not_true,
          List.filter_cons_of_neg, Bool.false_eq_true, not_false_eq_true, lookup, if_true,
          Option.map_some, Option.getD_some, List.map_cons, List.sum_cons]
        rw [add_comm]
        congr 1
        simpa using ih'
      · rw [List.filter_cons_of_pos (by simpa using h)]
        simp only [lookup, h, if_false, List.map_cons, List.sum_cons]
        rw [add_assoc, ih']
  exact hfilter d.entries d.nodup_keys

/-- Removing a key again that was new leaves the dictionary as it was. -/
theorem erase_insert_of_get?_eq_none {d : Dict κ ν} {k : κ} (h : d.get? k = none) (v : ν) :
    (d.insert k v).erase k = d := by
  have hput : ∀ l : List (κ × ν), lookup k l = none →
      (put k v l).filter (fun e => e.1 ≠ k) = l := by
    intro l hl
    induction l with
    | nil => simp [put]
    | cons e rest ih =>
      obtain ⟨k', v'⟩ := e
      by_cases hk : k' = k
      · simp [lookup, hk] at hl
      · simp only [lookup, hk, if_false] at hl
        simp only [put, hk, if_false]
        rw [List.filter_cons_of_pos (by simpa using hk), ih hl]
  obtain ⟨entries, hnodup⟩ := d
  simp only [erase, insert, mk.injEq]
  exact hput entries h

end Dict

namespace Store

variable {s : Store} {key : Key} {g : Group} {m : Message} {now : Instant}

/-! ## Look-up -/

@[simp] lemma get?_empty (capacity : Option Nat) (k : Key) : (empty capacity).get? k = none := rfl

/-- The group of a key, or the one that it would get. -/
def groupOf (s : Store) (key : Key) (now : Instant) : Group :=
  (s.get? key).getD (Group.new key now)

/-- A key that has a group keeps it. -/
lemma groupOf_of_get? (h : s.get? key = some g) (now : Instant) : s.groupOf key now = g := by
  rw [groupOf, h, Option.getD_some]

/-- A key that has no group would get a new one. -/
lemma groupOf_of_absent (h : s.get? key = none) (now : Instant) :
    s.groupOf key now = Group.new key now := by
  rw [groupOf, h, Option.getD_none]

/-- What is true of a stored group and of a new one is true of the group that a key would get. -/
lemma groupOf_induction {P : Group → Prop} (hstored : ∀ g, s.get? key = some g → P g)
    (hnew : s.get? key = none → P (.new key now)) : P (s.groupOf key now) := by
  cases hg : s.get? key with
  | none =>
    rw [groupOf_of_absent hg]
    exact hnew hg
  | some g =>
    rw [groupOf_of_get? hg]
    exact hstored g hg

/-- The group obtained for a key. -/
lemma obtain_fst (s : Store) (key : Key) (now : Instant) :
    (s.obtain key now).1 = s.groupOf key now := by
  unfold obtain groupOf
  cases s.get? key <;> rfl

/-- The group obtained for a key is new where the key had none. -/
lemma obtain_isNew (s : Store) (key : Key) (now : Instant) :
    (s.obtain key now).2.1 = (s.get? key).isNone := by
  unfold obtain
  cases s.get? key <;> rfl

/-- Obtaining a group changes the look-up of its key only. -/
lemma get?_obtain_eq (s : Store) (key : Key) (now : Instant) (k : Key) :
    (s.obtain key now).2.2.get? k =
      if key = k then some (s.groupOf key now) else s.get? k := by
  unfold obtain groupOf
  cases h : s.get? key with
  | some g =>
    by_cases hk : key = k
    · simp [← hk, h]
    · simp [hk]
  | none => simpa [get?] using Dict.get?_insert s.groups key k (Group.new key now)

/-- A key that has a group keeps it and the store stays as it is. -/
lemma obtain_of_get? (h : s.get? key = some g) (now : Instant) :
    s.obtain key now = (g, false, s) := by
  unfold obtain
  rw [h]

/-- Opening a group takes no room. -/
lemma hasRoom_obtain (s : Store) (key : Key) (now : Instant) :
    (s.obtain key now).2.2.hasRoom = s.hasRoom := by
  unfold obtain
  cases s.get? key <;> rfl

/-- Removing a group again that was obtained new leaves the store as it was. -/
lemma remove_obtain (h : s.get? key = none) (now : Instant) :
    ((s.obtain key now).2.2.remove key).2 = s := by
  have hget : (s.groups.insert key (Group.new key now)).get? key = some (Group.new key now) :=
    Dict.get?_insert_self _ _ _
  unfold obtain remove
  rw [h]
  simp only [get?, hget]
  rw [Dict.erase_insert_of_get?_eq_none h]
  rfl

/-- Replacing a group changes the look-up of its key only. -/
lemma get?_replace (s : Store) (g : Group) (k : Key) :
    (s.replace g).get? k = if g.key = k then some g else s.get? k :=
  Dict.get?_insert s.groups g.key k g

/-- Removing a group changes the look-up of its key only. -/
lemma get?_remove_eq (s : Store) (key k : Key) :
    (s.remove key).2.get? k = if key = k then none else s.get? k := by
  unfold remove
  cases h : s.get? key with
  | some g => exact Dict.get?_erase s.groups key k
  | none =>
    by_cases hk : key = k
    · simp [← hk, h]
    · simp [hk]

/-! ## The capacity -/

@[simp] lemma capacity_obtain (s : Store) (key : Key) (now : Instant) :
    (s.obtain key now).2.2.capacity = s.capacity := by
  unfold obtain
  cases s.get? key <;> rfl

@[simp] lemma capacity_replace (s : Store) (g : Group) : (s.replace g).capacity = s.capacity := rfl

@[simp] lemma capacity_remove (s : Store) (key : Key) :
    (s.remove key).2.capacity = s.capacity := by
  unfold remove
  cases s.get? key <;> rfl

/-- Without a capacity there is always room. -/
lemma hasRoom_of_capacity_eq_none (h : s.capacity = none) : s.hasRoom = true := by
  simp [hasRoom, h]

/-- There is room unless as many messages are buffered as may be. -/
lemma hasRoom_iff (s : Store) :
    s.hasRoom = true ↔ ∀ capacity, s.capacity = some capacity → s.buffered < capacity := by
  unfold hasRoom
  cases s.capacity <;> simp

/-! ## Adding a message -/

/-- Adding a message obtains the group of its key first and looks for room then. -/
lemma add_eq (s : Store) (key : Key) (m : Message) (now : Instant) :
    s.add key m now =
      let s' := (s.obtain key now).2.2
      let g := (s.groupOf key now).push m
      if s.hasRoom then
        (.ok g, { s' with groups := s'.groups.insert key g, buffered := s'.buffered + 1 })
      else (.error (.capacityExceeded (s.capacity.getD 0)), s') := by
  rw [← obtain_fst, ← hasRoom_obtain s key now, ← capacity_obtain s key now]
  rfl

/-- A message that finds room joins the group of its key. -/
lemma add_of_hasRoom (h : s.get? key = some g) (hr : s.hasRoom = true) (m : Message)
    (now : Instant) :
    s.add key m now =
      (.ok (g.push m),
        { s with groups := s.groups.insert key (g.push m), buffered := s.buffered + 1 }) := by
  simp only [add_eq, hr, if_true, groupOf_of_get? h, obtain_of_get? h]

/-- A message that finds no room changes nothing where the key has a group. -/
lemma add_of_full (h : s.get? key = some g) (hr : s.hasRoom = false) (m : Message)
    (now : Instant) :
    s.add key m now = (.error (.capacityExceeded (s.capacity.getD 0)), s) := by
  simp only [add_eq, hr, Bool.false_eq_true, if_false, obtain_of_get? h]

@[simp] lemma capacity_add (s : Store) (key : Key) (m : Message) (now : Instant) :
    (s.add key m now).2.capacity = s.capacity := by
  rw [add_eq]
  cases s.hasRoom <;> exact s.capacity_obtain key now

/-! ## The balance -/

/-- The number of messages buffered for a key is the length of its group. -/
lemma length_list (s : Store) (key : Key) :
    (s.list key).length = ((s.get? key).map Group.length).getD 0 := by
  unfold list
  cases s.get? key <;> simp [Group.length]

/-- Every group stands under its own key, and the counter counts the messages that the groups
buffer. -/
structure Balanced (s : Store) : Prop where
  keyed : ∀ key g, s.get? key = some g → g.key = key
  counted : s.buffered = s.groups.total Group.length

/-- A store without groups is balanced. -/
lemma balanced_empty (capacity : Option Nat) : (empty capacity).Balanced where
  keyed _ _ h := by simp at h
  counted := rfl

/-- No more messages are buffered for a key than the counter says. -/
lemma Balanced.length_list_le (hb : s.Balanced) (key : Key) :
    (s.list key).length ≤ s.buffered := by
  have htotal := s.groups.total_erase Group.length key
  rw [length_list, hb.counted]
  unfold get?
  omega

/-- A store stays balanced if a group is put under its own key, and the counter changes by as much
as the number of messages that are buffered there. -/
lemma Balanced.insert (hb : s.Balanced) (hkey : g.key = key) {buffered : ℕ}
    (hbuffered : buffered + (s.list key).length = s.buffered + g.length) :
    Balanced { s with groups := s.groups.insert key g, buffered } where
  keyed k g' hk := by
    replace hk : (s.groups.insert key g).get? k = some g' := hk
    rw [Dict.get?_insert] at hk
    split at hk
    · rename_i he
      cases hk
      exact hkey.trans he
    · exact hb.keyed k g' hk
  counted := by
    have htotal := s.groups.total_insert Group.length key g
    have hcounted := hb.counted
    rw [length_list] at hbuffered
    unfold get? at hbuffered
    show buffered = (s.groups.insert key g).total Group.length
    omega

/-- A new group buffers nothing. -/
theorem Balanced.obtain (hb : s.Balanced) (key : Key) (now : Instant) :
    (s.obtain key now).2.2.Balanced := by
  unfold Store.obtain
  cases h : s.get? key with
  | some g => exact hb
  | none =>
    have hkey : (Group.new key now).key = key := rfl
    refine hb.insert hkey ?_
    rw [length_list, h]
    rfl

/-- A message that finds room adds one, and one that finds none leaves the counter alone. -/
theorem Balanced.add (hb : s.Balanced) (key : Key) (m : Message) (now : Instant) :
    (s.add key m now).2.Balanced := by
  have hobtain := hb.obtain key now
  have hstored := s.get?_obtain key now
  rw [obtain_fst] at hstored
  rw [add_eq]
  cases s.hasRoom with
  | false => exact hobtain
  | true =>
    have hkey : ((s.groupOf key now).push m).key = key :=
      hobtain.keyed key (s.groupOf key now) hstored
    refine hobtain.insert hkey ?_
    rw [length_list, hstored, Option.map_some, Option.getD_some, Group.length_push]
    exact Nat.add_right_comm _ _ _

/-- Putting back a group, whatever it has become since, changes the counter by the difference. -/
theorem Balanced.replace (hb : s.Balanced) (g : Group) : (s.replace g).Balanced := by
  have hle := hb.length_list_le g.key
  refine hb.insert rfl ?_
  split <;> omega

/-- Removing a group takes its messages away. -/
theorem Balanced.remove (hb : s.Balanced) (key : Key) : (s.remove key).2.Balanced := by
  unfold Store.remove
  cases h : s.get? key with
  | none => exact hb
  | some g =>
    have htotal := s.groups.total_erase Group.length key
    rw [show s.groups.get? key = some g from h, Option.map_some, Option.getD_some] at htotal
    have hcounted := hb.counted
    constructor
    · intro k g' hk
      replace hk : (s.groups.erase key).get? k = some g' := hk
      rw [Dict.get?_erase] at hk
      split at hk
      · cases hk
      · exact hb.keyed k g' hk
    · show s.buffered - g.length = (s.groups.erase key).total Group.length
      omega

/-! ## Validity -/

/-- Every group stands under its own key, the counter counts the messages that the groups buffer,
and it does not exceed the capacity. -/
structure Valid (s : Store) : Prop where
  keyed : ∀ key g, s.get? key = some g → g.key = key
  counted : s.buffered = s.groups.total Group.length
  bounded : ∀ capacity, s.capacity = some capacity → s.buffered ≤ capacity

/-- A valid store is balanced. -/
lemma Valid.balanced (hv : s.Valid) : s.Balanced := ⟨hv.keyed, hv.counted⟩

/-- A balanced store is valid if its counter does not exceed the capacity. -/
lemma Balanced.valid (hb : s.Balanced)
    (hbound : ∀ capacity, s.capacity = some capacity → s.buffered ≤ capacity) : s.Valid :=
  ⟨hb.keyed, hb.counted, hbound⟩

/-- A store without groups is valid. -/
lemma valid_empty (capacity : Option Nat) : (empty capacity).Valid :=
  (balanced_empty capacity).valid fun _ _ => Nat.zero_le _

/-- No group buffers more than the counter says. -/
lemma Valid.length_le (hv : s.Valid) (h : s.get? key = some g) : g.length ≤ s.buffered := by
  have hle := hv.balanced.length_list_le key
  rwa [length_list, h, Option.map_some, Option.getD_some] at hle

/-- Opening a group leaves the counter alone. -/
lemma buffered_obtain (s : Store) (key : Key) (now : Instant) :
    (s.obtain key now).2.2.buffered = s.buffered := by
  unfold obtain
  cases s.get? key <;> rfl

/-- Obtaining a group keeps the store valid. -/
theorem Valid.obtain (hv : s.Valid) (key : Key) (now : Instant) :
    (s.obtain key now).2.2.Valid := by
  refine (hv.balanced.obtain key now).valid ?_
  rw [capacity_obtain, buffered_obtain]
  exact hv.bounded

/-- A message that finds room adds one. -/
theorem Valid.add (hv : s.Valid) (h : s.get? key = some g) (m : Message) (now : Instant) :
    (s.add key m now).2.Valid := by
  refine (hv.balanced.add key m now).valid fun capacity hcap => ?_
  rw [capacity_add] at hcap
  cases hr : s.hasRoom with
  | false =>
    rw [add_of_full h hr]
    exact hv.bounded capacity hcap
  | true =>
    rw [add_of_hasRoom h hr]
    simp only [hasRoom, hcap, decide_eq_true_eq] at hr
    exact hr

/-- A message that finds room joins the group of its key, and the other groups stay. -/
lemma Valid.exists_add (hv : s.Valid) (h : s.get? key = some g) (hr : s.hasRoom = true)
    (m : Message) (now : Instant) :
    ∃ s', s.add key m now = (.ok (g.push m), s') ∧ s'.Valid ∧
      ∀ k, s'.get? k = if key = k then some (g.push m) else s.get? k := by
  have hadd := add_of_hasRoom h hr m now
  have hvalid := hv.add h m now
  rw [hadd] at hvalid
  exact ⟨_, hadd, hvalid, fun k => Dict.get?_insert s.groups key k (g.push m)⟩

/-- Putting back a group that has not grown keeps the store valid. -/
theorem Valid.replace (hv : s.Valid) (hle : g.length ≤ (s.list g.key).length) :
    (s.replace g).Valid := by
  refine (hv.balanced.replace g).valid fun capacity hcap => ?_
  have hbound := hv.bounded capacity hcap
  simp only [Store.replace]
  split <;> omega

/-- Removing a group keeps the store valid. -/
theorem Valid.remove (hv : s.Valid) (key : Key) : (s.remove key).2.Valid := by
  refine (hv.balanced.remove key).valid fun capacity hcap => ?_
  rw [capacity_remove] at hcap
  have hbound := hv.bounded capacity hcap
  unfold Store.remove
  cases s.get? key with
  | none => exact hbound
  | some g => exact Nat.le_trans (Nat.sub_le _ _) hbound

/-- A valid store without a group is empty. -/
lemma Valid.eq_empty (hv : s.Valid) (h : ∀ k, s.get? k = none) : s = empty s.capacity := by
  obtain ⟨⟨entries, hnodup⟩, capacity, buffered⟩ := s
  cases entries with
  | nil =>
    have : buffered = 0 := hv.counted
    rw [this]
    rfl
  | cons e entries =>
    have := h e.1
    simp [get?, Dict.get?, Dict.lookup] at this

end Store

end Regroup
