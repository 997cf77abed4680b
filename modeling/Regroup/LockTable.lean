import Regroup.Group.Basic

/-!
# Locks by key

A registry of the keys that callers are working on. A caller enters a key, works, and leaves it;
the key is forgotten when its last caller leaves. A caller whose work breaks off gives its lock up
without cleaning up, and the key stays registered until a later caller leaves it in order.

## Main definitions

* `Regroup.LockTable` — the registered keys with the number of their callers.
* `Regroup.LockTable.enter`, `Regroup.LockTable.leave`, `Regroup.LockTable.abandon` — the three
  ways in and out.
* `Regroup.LockTable.nest` — one call that enters several keys, one inside the other.
-/

namespace Regroup

/-- The registered keys, each with the number of callers that hold it or wait for it. -/
structure LockTable where
  /-- The number of callers of each registered key. -/
  callers : Dict Key Nat
  deriving DecidableEq

namespace LockTable

/-- No key is registered. -/
def empty : LockTable := ⟨Dict.empty⟩

instance : Inhabited LockTable := ⟨empty⟩

variable (t : LockTable)

/-- The number of registered keys. -/
def size : Nat := t.callers.size

/-- Whether no key is registered. -/
def isEmpty : Bool := t.callers.isEmpty

/-- The number of callers of a key, none if it is not registered. -/
def callersOf (key : Key) : Nat := (t.callers.get? key).getD 0

/-- Registers one more caller of a key. -/
def enter (key : Key) : LockTable := ⟨t.callers.insert key (t.callersOf key + 1)⟩

/-- A caller leaves a key in order; the last one takes it out of the registry. -/
def leave (key : Key) : LockTable :=
  if t.callersOf key ≤ 1 then ⟨t.callers.erase key⟩
  else ⟨t.callers.insert key (t.callersOf key - 1)⟩

/-- A caller's work breaks off: it is no caller any more, and the key stays registered. -/
def abandon (key : Key) : LockTable := ⟨t.callers.insert key (t.callersOf key - 1)⟩

/-! ## Nested calls -/

/-- How the work of a call ends. -/
inductive Ending where
  /-- In order. -/
  | returned
  /-- By breaking off. -/
  | brokeOff
  deriving DecidableEq, Repr

/-- What a nested call does to the registry, with the number of registered keys after it. -/
inductive Event where
  /-- A key has been entered. -/
  | entered (key : Key) (registered : Nat)
  /-- A key has been left in order. -/
  | left (key : Key) (registered : Nat)
  deriving DecidableEq

/-- Enters the keys from left to right, each inside the one before, and lets the innermost work end
as told. Work that breaks off breaks off every key of the nest. -/
def nest (ending : Ending) (t : LockTable) : List Key → List Event × LockTable
  | [] => ([], t)
  | key :: keys =>
    let inside := t.enter key
    let (events, t) := nest ending inside keys
    match ending with
    | .returned =>
      let t := t.leave key
      (.entered key inside.size :: events ++ [.left key t.size], t)
    | .brokeOff => (.entered key inside.size :: events, t.abandon key)

/-! ## Laws -/

/-- Entering a key registers it. -/
theorem contains_enter (key : Key) : (t.enter key).callers.contains key = true := by
  simp [enter, Dict.contains]

/-- Leaving a key that was entered restores the number of its callers. -/
theorem callersOf_leave_enter (key : Key) :
    ((t.enter key).leave key).callersOf key = t.callersOf key := by
  have h : (t.enter key).callersOf key = t.callersOf key + 1 := by simp [enter, callersOf]
  unfold leave
  rw [h]
  split
  · have h0 : t.callersOf key = 0 := by omega
    rw [h0]
    simp [callersOf]
  · simp [callersOf]

end LockTable

end Regroup
