import Regroup.Proofs.Store.Counter

/-!
# Operations of a store in any order

A store that is used by itself takes any operation at any time. A group may be put back that has
grown, that was taken long ago, or that was never in the store, and its key may have another group
by then or none. The counter is only ever adjusted by differences of lengths, and still it counts
what is buffered, so that it is never adjusted below zero. It is a natural number here; where the
total stays below some bound the counter does too.

## Main definitions

* `Regroup.Store.Operation` — what a store can be asked to do.
* `Regroup.Store.operate`, `Regroup.Store.operateAll` — the store behind an operation, behind many.
* `Regroup.Store.Operation.given`, `Regroup.Store.Operation.taken` — what an operation adds to the
  counter, and what it takes off.
* `Regroup.Store.Appends` — that a message has been put at the end of one group and nowhere else.
* `Regroup.Store.Unchanged` — that two stores have the same groups and the same counter.

## Main results

* `Regroup.Store.Balanced.operate` — every operation keeps a store balanced.
* `Regroup.Store.Balanced.buffered_operate` — every operation moves the counter by just as much as
  it gives and takes.
* `Regroup.Store.balanced_of_operations` — the books of a store are right behind any operations.
* `Regroup.Store.unchanged_iff_of_add_error` — what a message leaves behind that finds no room.
-/

namespace Regroup.Store

variable {s : Store} {key : Key} {g : Group} {m : Message} {now : Instant}

/-! ## Operations -/

/-- What a store can be asked to do. -/
inductive Operation where
  /-- Gives the group of a key, a new one if it had none. -/
  | obtain (key : Key) (now : Instant)
  /-- Gives the group of a key, if there is one. -/
  | get (key : Key)
  /-- Appends a message to the group of a key. -/
  | add (key : Key) (m : Message) (now : Instant)
  /-- Puts a group under its key, wherever it comes from. -/
  | replace (g : Group)
  /-- Removes the group of a key. -/
  | remove (key : Key)
  /-- Lists the messages buffered for a key. -/
  | list (key : Key)
  /-- Lists the keys of the groups that came into being at the cutoff or before. -/
  | keysUntil (cutoff : Instant)

/-- The store behind an operation. What only looks things up leaves it as it is. -/
def operate (s : Store) : Operation → Store
  | .obtain key now => (s.obtain key now).2.2
  | .add key m now => (s.add key m now).2
  | .replace g => s.replace g
  | .remove key => (s.remove key).2
  | .get _ | .list _ | .keysUntil _ => s

/-- The store behind operations that are made one after the other. -/
def operateAll (s : Store) (operations : List Operation) : Store := operations.foldl operate s

/-- How much an operation adds to the counter: a message that finds room, or as many messages as a
group is longer than the one in whose place it is put. -/
def Operation.given (s : Store) : Operation → ℕ
  | .add _ _ _ => if s.hasRoom then 1 else 0
  | .replace g => g.length - (s.list g.key).length
  | .obtain _ _ | .get _ | .remove _ | .list _ | .keysUntil _ => 0

/-- How much an operation takes off the counter: what a removed group buffers, or as many messages
as a group is shorter than the one in whose place it is put. -/
def Operation.taken (s : Store) : Operation → ℕ
  | .replace g => (s.list g.key).length - g.length
  | .remove key => (s.list key).length
  | .obtain _ _ | .get _ | .add _ _ _ | .list _ | .keysUntil _ => 0

/-! ## One operation -/

/-- No operation changes the capacity. -/
lemma capacity_operate (s : Store) (op : Operation) : (s.operate op).capacity = s.capacity := by
  cases op with
  | obtain key now => exact s.capacity_obtain key now
  | add key m now => exact s.capacity_add key m now
  | replace g => rfl
  | remove key => exact s.capacity_remove key
  | get key => rfl
  | list key => rfl
  | keysUntil cutoff => rfl

/-- Every operation keeps a store balanced. -/
theorem Balanced.operate (hb : s.Balanced) (op : Operation) : (s.operate op).Balanced := by
  cases op with
  | obtain key now => exact hb.obtain key now
  | add key m now => exact hb.add key m now
  | replace g => exact hb.replace g
  | remove key => exact hb.remove key
  | get key => exact hb
  | list key => exact hb
  | keysUntil cutoff => exact hb

/-- No operation takes more off the counter than it says. -/
lemma Balanced.taken_le (hb : s.Balanced) (op : Operation) : op.taken s ≤ s.buffered := by
  cases op with
  | replace g => exact Nat.le_trans (Nat.sub_le _ _) (hb.length_list_le g.key)
  | remove key => exact hb.length_list_le key
  | obtain key now => exact Nat.zero_le _
  | add key m now => exact Nat.zero_le _
  | get key => exact Nat.zero_le _
  | list key => exact Nat.zero_le _
  | keysUntil cutoff => exact Nat.zero_le _

/-- Every operation moves the counter by just as much as it gives and takes. -/
theorem Balanced.buffered_operate (hb : s.Balanced) (op : Operation) :
    (s.operate op).buffered + op.taken s = s.buffered + op.given s := by
  have htaken := hb.taken_le op
  cases op with
  | obtain key now => exact s.buffered_obtain key now
  | add key m now =>
    have hobtain := s.buffered_obtain key now
    show (s.add key m now).2.buffered = s.buffered + if s.hasRoom then 1 else 0
    rw [add_eq]
    cases s.hasRoom with
    | false => exact hobtain
    | true => exact congrArg (· + 1) hobtain
  | replace g =>
    have hle := hb.length_list_le g.key
    simp only [Store.operate, Store.replace, Operation.taken, Operation.given]
    split <;> omega
  | remove key =>
    have hbuffered : (s.remove key).2.buffered = s.buffered - (s.list key).length := by
      rw [length_list]
      unfold Store.remove
      cases s.get? key <;> rfl
    show (s.remove key).2.buffered + (s.list key).length = s.buffered
    rw [hbuffered]
    exact Nat.sub_add_cancel htaken
  | get key => rfl
  | list key => rfl
  | keysUntil cutoff => rfl

/-! ## Adding a message -/

/-- A message that is added to a store has been put at the end of the group of its key, which is a
new one if there was none, and that is the only group that has changed. -/
structure Appends (s : Store) (key : Key) (m : Message) (now : Instant) (g : Group)
    (s' : Store) : Prop where
  /-- The group is the one before with the message behind the others. -/
  group_eq : g = (s.groupOf key now).push m
  /-- The message comes behind all that were buffered for the key. -/
  messages_eq : g.messages = s.list key ++ [m]
  /-- The group is stored under the key. -/
  stored : s'.get? key = some g
  /-- The other groups are what they were. -/
  others : ∀ k, key ≠ k → s'.get? k = s.get? k

/-- The messages of the group that is obtained for a key are those buffered for it. -/
lemma messages_groupOf (s : Store) (key : Key) (now : Instant) :
    (s.groupOf key now).messages = s.list key := by
  unfold groupOf list
  cases s.get? key <;> rfl

/-- A message is added exactly if there is room for it. -/
lemma exists_add_eq_ok_iff (s : Store) (key : Key) (m : Message) (now : Instant) :
    (∃ g, (s.add key m now).1 = .ok g) ↔ s.hasRoom = true := by
  rw [add_eq]
  cases s.hasRoom <;> simp

/-- A message that is added has been put at the end of one group. -/
lemma appends_of_add_ok (h : (s.add key m now).1 = .ok g) :
    s.Appends key m now g (s.add key m now).2 := by
  have hroom := (s.exists_add_eq_ok_iff key m now).1 ⟨g, h⟩
  simp only [add_eq, hroom, if_true, Except.ok.injEq] at h ⊢
  subst h
  refine ⟨rfl, ?_, Dict.get?_insert_self _ _ _, fun k hk => ?_⟩
  · rw [← messages_groupOf s key now]
    rfl
  · refine (Dict.get?_insert _ _ _ _).trans ?_
    rw [if_neg hk]
    exact (s.get?_obtain_eq key now k).trans (if_neg hk)

/-! ## Any operations -/

/-- What every operation keeps is true behind any operations. -/
lemma operateAll_induction {P : Store → Prop} (hstep : ∀ s op, P s → P (s.operate op)) (h : P s)
    (operations : List Operation) : P (s.operateAll operations) := by
  induction operations generalizing s with
  | nil => exact h
  | cons op operations ih => exact ih (hstep s op h)

/-- **The books of a store are right behind any operations** on a store that was empty, whatever its
capacity is and whatever groups are put back. Every group stands under its own key, and the counter
is the sum of the groups' lengths. No operation can take more off the counter than it says, and it
moves the counter by just as much as it gives and takes. A message is added exactly if there is no
capacity or the counter is below it, and then it is put at the end of one group, which is returned.

**Proof sketch.** Every operation keeps a store balanced (`Balanced.operate`). In a balanced store
what is buffered for one key is part of what the counter counts, which bounds what can be taken
off. -/
theorem balanced_of_operations (capacity : Option ℕ) (operations : List Operation) :
    let s := (empty capacity).operateAll operations
    s.Balanced ∧
      (∀ op : Operation, op.taken s ≤ s.buffered ∧
        (s.operate op).buffered + op.taken s = s.buffered + op.given s) ∧
      ∀ key m now,
        ((∃ g, (s.add key m now).1 = .ok g) ↔
          ∀ bound, capacity = some bound → s.buffered < bound) ∧
        ∀ g, (s.add key m now).1 = .ok g → s.Appends key m now g (s.add key m now).2 := by
  intro s
  have hb : s.Balanced :=
    operateAll_induction (fun _ op h => h.operate op) (balanced_empty capacity) operations
  have hcap : s.capacity = capacity :=
    operateAll_induction (P := fun s => s.capacity = capacity)
      (fun s op h => (s.capacity_operate op).trans h) rfl operations
  refine ⟨hb, fun op => ⟨hb.taken_le op, hb.buffered_operate op⟩, fun key m now => ⟨?_, ?_⟩⟩
  · rw [exists_add_eq_ok_iff, hasRoom_iff, hcap]
  · exact fun g hadd => appends_of_add_ok hadd

/-- A copy that holds two messages is put back in the place of a group with one. A third message is
then added to it, and the store is full. A group that holds nothing could be put in its place. -/
theorem balanced_of_operations_stale :
    let m := Message.bare
    let copy : Group := ⟨"a", [m "one", m "two"], none, .start, 2, ⟨5⟩, false⟩
    let operations : List Operation := [.add "a" (m "one") ⟨5⟩, .add "a" (m "two") ⟨6⟩,
      .remove "a", .add "a" (m "three") ⟨8⟩, .replace copy]
    let s := (empty (some 3)).operateAll operations
    let added := s.add "a" (m "four") ⟨9⟩
    s.Balanced ∧ s.buffered = 2 ∧
      added.1 = .ok (copy.push (m "four")) ∧
      s.Appends "a" (m "four") ⟨9⟩ (copy.push (m "four")) added.2 ∧
      added.2.hasRoom = false ∧ (Operation.replace (.new "a" ⟨9⟩)).taken added.2 = 3 := by
  intro m copy operations s added
  have hadded : added.1 = .ok (copy.push (m "four")) := by decide
  obtain ⟨hbalanced, -, hadd⟩ := balanced_of_operations (some 3) operations
  exact ⟨hbalanced, by decide, hadded, (hadd "a" (m "four") ⟨9⟩).2 _ hadded, by decide, by decide⟩

/-! ## A message that finds no room -/

/-- Two stores have the same groups under the same keys, equally many of them, and the same
counter. -/
structure Unchanged (s s' : Store) : Prop where
  get?_eq : ∀ k, s'.get? k = s.get? k
  size_eq : s'.size = s.size
  buffered_eq : s'.buffered = s.buffered

/-- Opening a group changes nothing in what is buffered for any key. -/
lemma list_obtain (s : Store) (key : Key) (now : Instant) (k : Key) :
    (s.obtain key now).2.2.list k = s.list k := by
  have hget := s.get?_obtain_eq key now k
  by_cases hk : key = k
  · subst hk
    rw [if_pos rfl] at hget
    rw [← messages_groupOf s key now, list, hget]
    rfl
  · rw [if_neg hk] at hget
    rw [list, hget, list]

/-- Opening a group for a key that has none makes one group more. -/
lemma size_obtain_of_absent (h : s.get? key = none) (now : Instant) :
    (s.obtain key now).2.2.size = s.size + 1 := by
  have hkey : key ∉ s.groups.keys := by
    rw [← Dict.contains_iff, Dict.contains, show s.groups.get? key = none from h]
    simp
  have hkeys := s.groups.keys_insert key (Group.new key now)
  rw [if_neg hkey] at hkeys
  have hlength := congrArg List.length hkeys
  unfold obtain
  rw [h]
  simpa [size, Dict.size, Dict.keys] using hlength

/-- Where a message finds no room, the group of its key has been obtained and nothing else. -/
lemma add_snd_of_error {cause : StoreFailure} (h : (s.add key m now).1 = .error cause) :
    (s.add key m now).2 = (s.obtain key now).2.2 ∧
      ∃ bound, s.capacity = some bound ∧ bound ≤ s.buffered ∧ cause = .capacityExceeded bound := by
  cases hroom : s.hasRoom with
  | true =>
    simp only [add_eq, hroom, if_true] at h
    cases h
  | false =>
    simp only [add_eq, hroom, Bool.false_eq_true, if_false, Except.error.injEq] at h ⊢
    refine ⟨trivial, ?_⟩
    cases hcap : s.capacity with
    | none => simp [hasRoom, hcap] at hroom
    | some bound =>
      refine ⟨bound, rfl, by simpa [hasRoom, hcap] using hroom, ?_⟩
      rw [← h, hcap, Option.getD_some]

/-- **A message that finds no room changes nothing exactly if its key has a group.** The store is
full then, and the failure tells its capacity. In any case the counter, the other groups, and what
is buffered for every key stay as they are; but a key without a group is left with an empty one. -/
theorem unchanged_iff_of_add_error (s : Store) (key : Key) (m : Message) (now : Instant)
    (cause : StoreFailure) (h : (s.add key m now).1 = .error cause) :
    let s' := (s.add key m now).2
    (s.Unchanged s' ↔ s.get? key ≠ none) ∧
      (∃ bound, s.capacity = some bound ∧ bound ≤ s.buffered ∧
        cause = .capacityExceeded bound) ∧
      s'.buffered = s.buffered ∧ (∀ k, s'.list k = s.list k) ∧
      (∀ k, key ≠ k → s'.get? k = s.get? k) ∧
      (s.get? key = none → s'.get? key = some (.new key now) ∧ s'.size = s.size + 1) := by
  intro s'
  obtain ⟨hadd, hfull⟩ := add_snd_of_error h
  rw [show s' = (s.obtain key now).2.2 from hadd]
  have hget := s.get?_obtain_eq key now
  refine ⟨⟨fun hsame habsent => ?_, fun hstored => ?_⟩, hfull, s.buffered_obtain key now,
    s.list_obtain key now, fun k hk => (hget k).trans (if_neg hk), fun habsent => ⟨?_, ?_⟩⟩
  · have := hsame.size_eq
    rw [size_obtain_of_absent habsent] at this
    omega
  · obtain ⟨g, hg⟩ := Option.ne_none_iff_exists'.1 hstored
    rw [obtain_of_get? hg]
    exact ⟨fun _ => rfl, rfl, rfl⟩
  · rw [hget, if_pos rfl, groupOf_of_absent habsent]
  · exact size_obtain_of_absent habsent now

/-- A store that may buffer one message does so. A second message for the same key changes nothing;
one for another key leaves an empty group. -/
theorem unchanged_iff_of_add_error_full :
    let m := Message.bare
    let s := (empty (some 1)).operateAll [.add "a" (m "one") ⟨5⟩]
    let known := s.add "a" (m "two") ⟨6⟩
    let other := s.add "b" (m "two") ⟨6⟩
    known.1 = .error (.capacityExceeded 1) ∧ s.Unchanged known.2 ∧
      other.1 = .error (.capacityExceeded 1) ∧ ¬ s.Unchanged other.2 ∧
      other.2.get? "b" = some (.new "b" ⟨6⟩) ∧ other.2.size = 2 := by
  intro m s known other
  have hknown : known.1 = .error (.capacityExceeded 1) := by decide
  have hother : other.1 = .error (.capacityExceeded 1) := by decide
  have habsent : s.get? "b" = none := by decide
  obtain ⟨hsame, -⟩ := unchanged_iff_of_add_error s "a" (m "two") ⟨6⟩ _ hknown
  obtain ⟨hchanged, -, -, -, -, hnew⟩ := unchanged_iff_of_add_error s "b" (m "two") ⟨6⟩ _ hother
  exact ⟨hknown, hsame.2 (by decide), hother, fun h => hchanged.1 h habsent,
    (hnew habsent).1, (hnew habsent).2⟩

/-- Not always does a message that finds no room change nothing: in a full store the key of another
group is left with an empty one. -/
theorem not_forall_unchanged :
    ¬ ∀ (capacity : Option ℕ) (operations : List Operation) (key : Key) (m : Message)
      (now : Instant) (cause : StoreFailure),
      (((empty capacity).operateAll operations).add key m now).1 = .error cause →
        ((empty capacity).operateAll operations).Unchanged
          (((empty capacity).operateAll operations).add key m now).2 := by
  intro hall
  have hsame := hall (some 1) [.add "a" (.bare "one") ⟨5⟩] "b" (.bare "two") ⟨6⟩
    (.capacityExceeded 1) (by decide)
  exact absurd hsame.size_eq (by decide)

end Regroup.Store
