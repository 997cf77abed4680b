import Regroup.Message.Basic

/-!
# Editing messages

Messages are built up header by header. An edit sets or clears headers of a message; a message is
the result of a list of edits on a bare payload or on another message.

## Main definitions

* `Regroup.Edit` — one change of the headers.
* `Regroup.Message.edit`, `Regroup.Message.build` — the message after one edit, after many.
-/

namespace Regroup

/-- A change of the headers of a message. -/
inductive Edit where
  /-- Sets what the message has in common with those that it belongs to. -/
  | correlationId (id : String)
  /-- Sets the position in the sequence. -/
  | sequenceNumber (number : SequenceNumber)
  /-- Sets the length of the sequence. -/
  | sequenceSize (size : SequenceNumber)
  /-- Sets position and length. -/
  | sequence (number size : SequenceNumber)
  /-- Sets the channel that is to receive the message. -/
  | replyChannel (channel : ChannelId)
  /-- Sets a free header. -/
  | header (name value : String)
  /-- Clears position and length. -/
  | clearSequence
  deriving DecidableEq

namespace Message

/-- The message after an edit. -/
def edit (m : Message) : Edit → Message
  | .correlationId id => { m with headers := { m.headers with correlationId := some id } }
  | .sequenceNumber number =>
    { m with headers := { m.headers with sequenceNumber := some number } }
  | .sequenceSize size => { m with headers := { m.headers with sequenceSize := some size } }
  | .sequence number size =>
    { m with headers :=
        { m.headers with sequenceNumber := some number, sequenceSize := some size } }
  | .replyChannel channel => { m with headers := { m.headers with replyChannel := some channel } }
  | .header name value =>
    { m with headers := { m.headers with extra := m.headers.extra.insert name value } }
  | .clearSequence =>
    { m with headers := { m.headers with sequenceNumber := none, sequenceSize := none } }

/-- The message after a list of edits, the first in the list made first. -/
def build (m : Message) (edits : List Edit) : Message := edits.foldl edit m

/-- Edits leave the payload alone. -/
@[simp] theorem payload_edit (m : Message) (e : Edit) : (m.edit e).payload = m.payload := by
  cases e <;> rfl

/-- A free header has the value that was set last. -/
theorem header_edit_header (m : Message) (name name' value : String) :
    (m.edit (.header name value)).header name' =
      if name = name' then some value else m.header name' :=
  Dict.get?_insert m.headers.extra name name' value

end Message

end Regroup
