import Regroup.Group.Basic

/-!
# Objections to a message

Before a message joins a group it is compared with what the group holds. A message that does not
belong there, or that has been there before, meets an objection.

## Main definitions

* `Regroup.Objection` — why a group does not take a message.
* `Regroup.Group.conflictsWith`, `Regroup.Group.isOutOfRange`, `Regroup.Group.isDuplicate` — the
  single checks.
* `Regroup.Group.objection?` — the first objection, in the order of the checks.
-/

namespace Regroup

/-- Why a group does not take a message. -/
inductive Objection where
  /-- The group has been released for good. -/
  | completed
  /-- The message tells another sequence length than the group knows. -/
  | sizeConflict
  /-- The position exceeds the length of the group's sequence. -/
  | outOfRange
  /-- The message has been accepted before. -/
  | duplicate
  deriving DecidableEq, Repr

namespace Group

variable (g : Group) (m : Message)

/-- Whether the message disagrees with the group on the length of the sequence. In strict mode a
group whose length is known and a message that tells none disagree too, and so do a group that
holds messages without having learnt a length and a message that tells one. -/
def conflictsWith (strict : Bool) : Bool :=
  match g.size, m.size with
  | some known, some told => known ≠ told
  | some _, none => strict
  | none, some _ => strict && !g.isEmpty
  | none, none => false

/-- Whether the position exceeds the length of the group's sequence. -/
def isOutOfRange : Bool :=
  match m.number, g.size with
  | some number, some size => size < number
  | _, _ => false

/-- Whether the message has been seen before: its position has been released or is buffered, or an
equal message is buffered. -/
def isDuplicate : Bool :=
  (match m.number with
    | some n => g.barrier.isReleased n || g.holds n
    | none => false) ||
    g.messages.any fun other => other.same m

/-- The first objection to a message, if there is any. -/
def objection? (strict : Bool) : Option Objection :=
  if g.completed then some .completed
  else if g.conflictsWith m strict then some .sizeConflict
  else if g.isOutOfRange m then some .outOfRange
  else if g.isDuplicate m then some .duplicate
  else none

/-- A group objects to nothing exactly when it is open and all checks pass. -/
theorem objection?_eq_none_iff (strict : Bool) :
    g.objection? m strict = none ↔
      g.completed = false ∧ g.conflictsWith m strict = false ∧ g.isOutOfRange m = false ∧
        g.isDuplicate m = false := by
  unfold objection?
  cases g.completed <;> cases g.conflictsWith m strict <;> cases g.isOutOfRange m <;>
    cases g.isDuplicate m <;> simp

end Group

end Regroup
