import Regroup.Message.Basic

/-!
# Combining payloads

Some functions that give the payload of a message standing for a list of messages.

## Main definitions

* `Regroup.Combine.joined`, `Regroup.Combine.counted`, `Regroup.Combine.latest`.
-/

namespace Regroup.Combine

/-- All payloads in order, with commas between them. -/
def joined (ms : List Message) : Payload := ",".intercalate (ms.map (·.payload))

/-- The number of messages. -/
def counted (ms : List Message) : Payload := toString ms.length

/-- The payload of the last message; empty without a message. -/
def latest (ms : List Message) : Payload := (ms.getLast?.map (·.payload)).getD ""

end Regroup.Combine
