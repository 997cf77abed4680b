import Regroup.Failure
import Regroup.Message.Basic
import Regroup.Text.Record

/-!
# Queues and channels

A queue buffers messages until they are received, and may be bounded. A channel is a queue or a
destination that takes nothing.

## Main definitions

* `Regroup.Queue` — buffered messages and a bound on their number.
* `Regroup.Queue.send`, `Regroup.Queue.receive`, `Regroup.Queue.drain`, `Regroup.Queue.poll`.
* `Regroup.Channel` — a queue, or a channel that refuses everything.
-/

namespace Regroup

/-- Messages waiting to be received. -/
structure Queue where
  /-- The number of messages that the queue may hold. -/
  capacity : Option Nat
  /-- The messages, the one sent first in front. -/
  messages : List Message
  deriving DecidableEq

namespace Queue

/-- An empty queue. -/
def empty (capacity : Option Nat) : Queue := ⟨capacity, []⟩

instance : Inhabited Queue := ⟨empty none⟩

variable (q : Queue)

/-- The number of messages waiting. -/
def length : Nat := q.messages.length

/-- Whether no message is waiting. -/
def isEmpty : Bool := q.messages.isEmpty

/-- Whether one more message fits. -/
def hasRoom : Bool :=
  match q.capacity with
  | some capacity => q.length < capacity
  | none => true

/-- Puts a message at the end. Where there is no room a sender who does not wait is told at once
that the queue is full, and one who waits for a time is told when the time is over; nothing is
received meanwhile. A sender who would wait for ever is cut off. -/
def send (m : Message) (timeout : Option Duration) : Except DispatchFailure Queue :=
  if q.hasRoom then .ok { q with messages := q.messages ++ [m] }
  else
    match timeout with
    | some limit => .error (if limit.isZero then .full else .timedOut limit)
    | none => .error .disconnected

/-- Takes the first message. -/
def receive : Option Message × Queue := (q.messages.head?, { q with messages := q.messages.tail })

/-- Takes all messages. -/
def drain : List Message × Queue := (q.messages, { q with messages := [] })

/-- Takes the first message a number of times; every time there is none is recorded as such. -/
def poll (times : Nat) : List (Option Message) × Queue :=
  ((q.messages.take times).map some ++ List.replicate (times - q.length) none,
    { q with messages := q.messages.drop times })

/-- Length and capacity as a record. -/
def toText : String :=
  Text.record "QueueChannel"
    [("len", toString q.length), ("capacity", Text.optional toString q.capacity)] false

/-- A send goes through exactly where there is room, and then puts the message at the end. -/
theorem send_eq_ok_iff (m : Message) (timeout : Option Duration) (q' : Queue) :
    q.send m timeout = .ok q' ↔ q.hasRoom = true ∧ q' = { q with messages := q.messages ++ [m] } := by
  unfold send
  cases h : q.hasRoom
  · cases timeout <;> simp
  · simp [eq_comm]

end Queue

/-- Where messages can be sent. -/
inductive Channel where
  /-- A queue. -/
  | queue (q : Queue)
  /-- A channel that takes nothing. -/
  | refusing
  deriving DecidableEq

namespace Channel

/-- The queue behind a channel, if there is one. -/
def queue? : Channel → Option Queue
  | .queue q => some q
  | .refusing => none

/-- Sends a message. -/
def send (c : Channel) (m : Message) (timeout : Option Duration) :
    Except DispatchFailure Channel :=
  match c with
  | .queue q => (q.send m timeout).map .queue
  | .refusing => .error .disconnected

end Channel

end Regroup
