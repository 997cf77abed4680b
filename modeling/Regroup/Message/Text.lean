import Regroup.Message.Basic
import Regroup.Text.Quoted
import Regroup.Text.Record

/-!
# Messages as text

The full text of a message, for a reader who wants to see every header.

## Main definitions

* `Regroup.Message.toText` — payload and headers as a record. Of a reply channel only its presence
  is shown.
-/

namespace Regroup

open Text

/-- All headers as a record. -/
def Headers.toText (h : Headers) : String :=
  record "MessageHeaders"
    [("correlation_id", optional quoted h.correlationId),
      ("sequence_number", optional (fun n => toString n.toNat) h.sequenceNumber),
      ("sequence_size", optional (fun n => toString n.toNat) h.sequenceSize),
      ("reply_channel", truth h.replyChannel.isSome),
      ("extra", dictionary (h.extra.entries.map fun e => (quoted e.1, quoted e.2)))]
    false

/-- The payload and all headers as a record. -/
def Message.toText (m : Message) : String :=
  record "Message" [("payload", quoted m.payload), ("headers", m.headers.toText)] false

end Regroup
