import Regroup.Dict

/-!
# Messages

A message is a payload with headers. The headers say which messages belong together, which
position a message has in its sequence, and where its answer is wanted.

## Main definitions

* `Regroup.Headers`, `Regroup.Message` — the data.
* `Regroup.Message.same` — equality of messages: extra headers count as a map, whatever their order.
* `Regroup.Message.isWellFormed` — whether the sequence headers make sense on their own.
-/

namespace Regroup

/-- What a message carries. Payloads are opaque and only ever compared: strings stand for any
payloads whose equality is lawful, so that a payload equals itself and equal payloads can stand for
each other. -/
abbrev Payload := String

/-- A position in a sequence, or the length of one. Positions count from one. -/
abbrev SequenceNumber := UInt32

/-- The identity of a channel. -/
abbrev ChannelId := String

/-- What is known about a message besides its payload. -/
structure Headers where
  /-- What messages that belong together have in common. -/
  correlationId : Option String
  /-- The position in the sequence, from one. -/
  sequenceNumber : Option SequenceNumber
  /-- The number of messages in the sequence. -/
  sequenceSize : Option SequenceNumber
  /-- The channel that is to receive the message instead of the common output. -/
  replyChannel : Option ChannelId
  /-- Free headers in the order in which they were first set. -/
  extra : Dict String String
  deriving DecidableEq

/-- A payload with its headers. -/
structure Message where
  /-- What the message carries. -/
  payload : Payload
  /-- What is known about it. -/
  headers : Headers
  deriving DecidableEq

namespace Headers

/-- No header at all. -/
def none : Headers := ⟨.none, .none, .none, .none, Dict.empty⟩

instance : Inhabited Headers := ⟨none⟩

/-- Whether two messages' headers are equal: the extra ones as a map, reply channels by their
identity. -/
def same (a b : Headers) : Bool :=
  a.replyChannel == b.replyChannel && a.correlationId == b.correlationId &&
    a.sequenceNumber == b.sequenceNumber && a.sequenceSize == b.sequenceSize &&
    a.extra.agrees b.extra

end Headers

namespace Message

/-- A message without headers. -/
def bare (payload : Payload) : Message := ⟨payload, Headers.none⟩

instance : Inhabited Message := ⟨bare ""⟩

/-- The correlation header. -/
def correlationId (m : Message) : Option String := m.headers.correlationId

/-- The position in the sequence. -/
def number (m : Message) : Option SequenceNumber := m.headers.sequenceNumber

/-- The length of the sequence. -/
def size (m : Message) : Option SequenceNumber := m.headers.sequenceSize

/-- The channel of its own that the message asks for. -/
def reply (m : Message) : Option ChannelId := m.headers.replyChannel

/-- The value of a free header. -/
def header (m : Message) (name : String) : Option String := m.headers.extra.get? name

/-- Whether the message has a position in a sequence. -/
def isNumbered (m : Message) : Bool := m.number.isSome

/-- Whether two messages are equal in payload and headers. -/
def same (a b : Message) : Bool := a.payload == b.payload && a.headers.same b.headers

/-- Whether the sequence headers make sense: neither is zero, the position does not exceed the
length, and a length comes with a position. -/
def isWellFormed (m : Message) : Bool :=
  match m.number, m.size with
  | none, none => true
  | some number, none => number ≠ 0
  | none, some _ => false
  | some number, some size => number ≠ 0 && size ≠ 0 && number ≤ size

/-- A well-formed position is at least one and does not exceed the length. -/
theorem isWellFormed_iff (m : Message) :
    m.isWellFormed = true ↔
      (∀ n, m.number = some n → n ≠ 0) ∧ (∀ s, m.size = some s → s ≠ 0) ∧
        (∀ s, m.size = some s → ∃ n, m.number = some n ∧ n ≤ s) := by
  unfold isWellFormed
  cases m.number <;> cases m.size <;> simp
  grind

end Message

end Regroup
