import Regroup.Text.Record
import Regroup.Time.DurationText

/-!
# Failures

What can go wrong when a message is handed in, stored or sent, with the texts that say so.

## Main definitions

* `Regroup.DispatchFailure`, `Regroup.StoreFailure` — causes at a destination, in the store.
* `Regroup.Failure` — what a caller is told.
* `message` of each — the sentence for people; `toText` of each — the full value.
-/

namespace Regroup

/-- Why a message could not be handed to a destination. -/
inductive DispatchFailure where
  /-- There is no channel that it could go to. -/
  | noDestination
  /-- The queue is full and the sender does not wait. -/
  | full
  /-- The queue stayed full for as long as the sender waits. -/
  | timedOut (after : Duration)
  /-- The channel takes no messages any more. -/
  | disconnected
  deriving DecidableEq

/-- Why the store did not take a message. -/
inductive StoreFailure where
  /-- As many messages as the store may hold are buffered. -/
  | capacityExceeded (capacity : Nat)
  deriving DecidableEq

/-- Why a call failed. -/
inductive Failure where
  /-- No key could be found for the message. -/
  | missingKey
  /-- A message could not be sent. -/
  | dispatch (cause : DispatchFailure)
  /-- The message could not be stored. -/
  | store (cause : StoreFailure)
  deriving DecidableEq

/-- The sentence for a failed dispatch. -/
def DispatchFailure.message : DispatchFailure → String
  | .noDestination => "no output channel or reply channel available"
  | .full => "channel is full"
  | .timedOut after => "send timed out after " ++ after.toText
  | .disconnected => "channel is disconnected"

/-- The sentence for a message that was not stored. -/
def StoreFailure.message : StoreFailure → String
  | .capacityExceeded capacity => "store capacity of " ++ toString capacity ++ " messages exceeded"

namespace Failure

/-- The sentence for a failed call. -/
def message : Failure → String
  | .missingKey => "message carries no correlation key"
  | .dispatch cause => "dispatch failed: " ++ cause.message
  | .store cause => "group store rejected the message: " ++ cause.message

/-- The sentence for what made the call fail, where that is a failure of its own. -/
def cause? : Failure → Option String
  | .missingKey => none
  | .dispatch cause => some cause.message
  | .store cause => some cause.message

end Failure

/-- The full value of a failed dispatch. -/
def DispatchFailure.toText : DispatchFailure → String
  | .noDestination => "NoDestination"
  | .full => "Full"
  | .timedOut after => "Timeout(" ++ after.toText ++ ")"
  | .disconnected => "Disconnected"

/-- The full value of a failure to store. -/
def StoreFailure.toText : StoreFailure → String
  | .capacityExceeded capacity =>
    Text.record "CapacityExceeded" [("capacity", toString capacity)] false

/-- The full value of a failure. -/
def Failure.toText : Failure → String
  | .missingKey => "MissingCorrelationKey"
  | .dispatch cause => "Dispatch(" ++ cause.toText ++ ")"
  | .store cause => "Store(" ++ cause.toText ++ ")"

end Regroup
