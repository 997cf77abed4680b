import Regroup.Message.Basic
import Regroup.Time.Instant

/-!
# Groups

A group holds the messages of one correlation key that have been accepted and not yet released,
in the order of their arrival, together with what is known of their sequence: its length, once a
message has told it, and how far the sequence has been released.

## Main definitions

* `Regroup.Barrier` — how far a sequence has been released.
* `Regroup.Group` — the messages of a key and what is known about their sequence.
* `Regroup.Group.holds`, `Regroup.Group.hasWholeSequence`, `Regroup.Group.isDrained` — which
  positions are buffered, whether all of them are, and whether all have been released.
* `Regroup.Group.byNumber` — the buffered messages by their position.
* `Regroup.Group.push` — the group with one more message.
-/

namespace Regroup

/-- What decides which group a message joins. -/
abbrev Key := String

/-! ## The barrier -/

/-- How far a sequence has been released: every position below `next`, and no other. -/
structure Barrier where
  /-- The position that is to be released next. -/
  next : SequenceNumber
  deriving DecidableEq

namespace Barrier

/-- Nothing has been released. -/
def start : Barrier := ⟨1⟩

instance : Inhabited Barrier := ⟨start⟩

/-- Whether the position has been released. -/
def isReleased (b : Barrier) (n : SequenceNumber) : Bool := n < b.next

/-- Whether the barrier has gone past the last position of a sequence of known length. -/
def isPast (b : Barrier) : Option SequenceNumber → Bool
  | some size => size < b.next
  | none => false

/-- The barrier behind the position that was to be released next. -/
def step (b : Barrier) : Barrier := ⟨b.next + 1⟩

end Barrier

/-! ## The group -/

/-- The messages of a key that have been accepted and not yet released. -/
structure Group where
  /-- The key that the messages have in common. -/
  key : Key
  /-- The buffered messages in the order of their arrival. -/
  messages : List Message
  /-- The length of the sequence, once a message has told it. -/
  size : Option SequenceNumber
  /-- How far the sequence has been released. -/
  barrier : Barrier
  /-- The number of messages accepted and not evicted since, the released ones included. -/
  received : Nat
  /-- When the group came into being. -/
  createdAt : Instant
  /-- Whether the group has been released for good and only stays to turn late messages away. -/
  completed : Bool
  deriving DecidableEq

namespace Group

/-- A group before its first message. -/
def new (key : Key) (createdAt : Instant) : Group :=
  ⟨key, [], none, Barrier.start, 0, createdAt, false⟩

instance : Inhabited Group := ⟨new "" default⟩

variable (g : Group)

/-- The number of buffered messages. -/
def length : Nat := g.messages.length

/-- Whether no message is buffered. -/
def isEmpty : Bool := g.messages.isEmpty

/-- Whether the length of the sequence is known. -/
def isSequenced : Bool := g.size.isSome

/-- Whether as many messages have been accepted as the sequence has; true while its length is not
known. -/
def hasSeenWhole : Bool :=
  match g.size with
  | some size => size.toNat ≤ g.received
  | none => true

/-- Whether a buffered message has the position. -/
def holds (n : SequenceNumber) : Bool := g.messages.any fun m => m.number == some n

/-- Whether every position of a sequence of known length is buffered. A group with fewer messages
than the sequence has positions cannot hold them all, so the positions are only looked up when
there are enough messages. -/
def hasWholeSequence : Bool :=
  match g.size with
  | some size =>
    size.toNat ≤ g.length && (List.range size.toNat).all fun i => g.holds (UInt32.ofNat (i + 1))
  | none => false

/-- Whether every position of a sequence of known length has been released. -/
def isDrained : Bool := g.barrier.isPast g.size

/-- Puts a message at its position into a list with ascending positions, in place of the one that
stands there. -/
def place (n : SequenceNumber) (m : Message) :
    List (SequenceNumber × Message) → List (SequenceNumber × Message)
  | [] => [(n, m)]
  | (n', m') :: rest =>
    if n < n' then (n, m) :: (n', m') :: rest
    else if n = n' then (n, m) :: rest
    else (n', m') :: place n m rest

/-- The numbered messages by ascending position; of several at one position the latest. -/
def byNumber : List (SequenceNumber × Message) :=
  g.messages.foldl
    (fun placed m =>
      match m.number with
      | some n => place n m placed
      | none => placed)
    []

/-- The group with one more message, whose sequence length counts if none is known yet. -/
def push (m : Message) : Group :=
  { g with
    messages := g.messages ++ [m]
    size := g.size.or m.size
    received := g.received + 1 }

theorem isEmpty_iff : g.isEmpty = true ↔ g.messages = [] := List.isEmpty_iff

theorem length_push (m : Message) : (g.push m).length = g.length + 1 := by
  simp [push, length]

theorem holds_iff (n : SequenceNumber) :
    g.holds n = true ↔ ∃ m ∈ g.messages, m.number = some n := by
  simp [holds]

end Group

end Regroup
