import Regroup.Failure
import Regroup.Group.Basic

/-!
# The store of groups

All groups by their keys, with a counter of the messages that they buffer together and an optional
bound on it. The counter is kept beside the groups and adjusted by every operation; that it is the
sum of the groups' lengths is a theorem and not part of the type.

## Main definitions

* `Regroup.Store` — groups, bound and counter.
* `Regroup.Store.obtain`, `Regroup.Store.add`, `Regroup.Store.replace`, `Regroup.Store.remove` — the
  operations that change it.
* `Regroup.Store.keysUntil` — the keys of groups that are old enough.
-/

namespace Regroup

/-- Groups by their keys. -/
structure Store where
  /-- The groups, each under a key. -/
  groups : Dict Key Group
  /-- The number of messages that all groups together may buffer. -/
  capacity : Option Nat
  /-- The counter of the messages that all groups together buffer. -/
  buffered : Nat
  deriving DecidableEq

namespace Store

/-- A store without groups. -/
def empty (capacity : Option Nat) : Store := ⟨Dict.empty, capacity, 0⟩

instance : Inhabited Store := ⟨empty none⟩

variable (s : Store)

/-! ## Look-up -/

/-- The group of a key. -/
def get? (key : Key) : Option Group := s.groups.get? key

/-- The messages buffered for a key, none if it has no group. -/
def list (key : Key) : List Message := ((s.get? key).map (·.messages)).getD []

/-- The number of groups. -/
def size : Nat := s.groups.size

/-- Whether there is no group. -/
def isEmpty : Bool := s.groups.isEmpty

/-- Whether one more message fits. -/
def hasRoom : Bool :=
  match s.capacity with
  | some capacity => s.buffered < capacity
  | none => true

/-- The groups in ascending order of their keys. -/
def listing : List Group :=
  (s.groups.entries.mergeSort fun a b => decide (a.1 ≤ b.1)).map Prod.snd

/-- The keys of the groups that came into being at the cutoff or before, in ascending order. -/
def keysUntil (cutoff : Instant) : List Key :=
  ((s.groups.entries.filter fun e => decide (e.2.createdAt ≤ cutoff)).map Prod.fst).mergeSort
    fun a b => decide (a ≤ b)

/-! ## Updates -/

/-- The group of a key, a new one if it had none, whether it is new, and the store that has it. -/
def obtain (key : Key) (now : Instant) : Group × Bool × Store :=
  match s.get? key with
  | some g => (g, false, s)
  | none =>
    let g := Group.new key now
    (g, true, { s with groups := s.groups.insert key g })

/-- Appends a message to the group of a key and gives the group as it is then. A key without a
group gets one first, also where the message then finds no room. -/
def add (key : Key) (m : Message) (now : Instant) : Except StoreFailure Group × Store :=
  let (g, _, s) := s.obtain key now
  if s.hasRoom then
    let g := g.push m
    (.ok g, { s with groups := s.groups.insert key g, buffered := s.buffered + 1 })
  else
    (.error (.capacityExceeded (s.capacity.getD 0)), s)

/-- Puts a group under its key, in place of the one that is there. The counter is adjusted by the
difference of their lengths. -/
def replace (g : Group) : Store :=
  let old := (s.list g.key).length
  { s with
    groups := s.groups.insert g.key g
    buffered :=
      if old ≤ g.length then s.buffered + (g.length - old) else s.buffered - (old - g.length) }

/-- Removes the group of a key and gives it. -/
def remove (key : Key) : Option Group × Store :=
  match s.get? key with
  | some g =>
    (some g, { s with groups := s.groups.erase key, buffered := s.buffered - g.length })
  | none => (none, s)

/-! ## Laws -/

/-- What is obtained for a key is what the store then has under it. -/
theorem get?_obtain (key : Key) (now : Instant) :
    (s.obtain key now).2.2.get? key = some (s.obtain key now).1 := by
  unfold obtain
  split
  · assumption
  · simp [get?]

/-- A removed key has no group any more. -/
theorem get?_remove (key : Key) : (s.remove key).2.get? key = none := by
  unfold remove
  split
  · simp [get?]
  · assumption

end Store

end Regroup
