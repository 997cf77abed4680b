import Regroup.Text.Record
import Regroup.Time.DurationText

/-!
# Settings

What can be set about a collector besides the policies and channels that it is put together from.

## Main definitions

* `Regroup.Settings` — the settings, all of them off by default.
* `Regroup.Settings.fault?` — what makes settings unusable.
* `Regroup.Settings.effectiveTimeout`, `Regroup.Settings.effectiveSweepInterval` — the values that
  are acted on.
-/

namespace Regroup

/-- What can be set about a collector. -/
structure Settings where
  /-- The age at which a group is closed. -/
  timeout : Option Duration
  /-- How long a send waits for room in a full queue, for ever if not set. -/
  sendTimeout : Option Duration
  /-- Whether a group that is closed early sends what it has to the output instead of discarding
  it. -/
  sendsEarlyResults : Bool
  /-- Whether runs of a sequence are released before the whole sequence is there. -/
  releasesRuns : Bool
  /-- Whether messages with and without a sequence length must not share a group. -/
  strictSize : Bool
  /-- Whether a group that is released before its whole sequence arrived stays as a mark, so that
  late messages are discarded. -/
  discardsLate : Bool
  /-- The number of messages that may be buffered at a time. -/
  capacity : Option Nat
  /-- The time between two sweeps over all groups. -/
  sweepInterval : Option Duration
  deriving DecidableEq

/-- Why settings are unusable. -/
inductive SettingsFault where
  /-- Nothing could ever be stored. -/
  | zeroCapacity
  /-- Sweeps would never pause. -/
  | zeroSweepInterval
  deriving DecidableEq, Repr

/-- The sentence for unusable settings. -/
def SettingsFault.message : SettingsFault → String
  | .zeroCapacity => "store_capacity must be greater than zero"
  | .zeroSweepInterval => "sweep_interval must be greater than zero"

namespace Settings

/-- Everything off. -/
def default : Settings := ⟨none, none, false, false, false, false, none, none⟩

instance : Inhabited Settings := ⟨default⟩

/-- Settings for resequencing without timeouts. -/
def resequencing (releasesRuns : Bool) : Settings := { default with releasesRuns }

/-- Settings that send on what a group has once it is older than the timeout. -/
def earlyResultsAfter (timeout : Duration) : Settings :=
  { default with timeout := some timeout, sendsEarlyResults := true }

variable (c : Settings)

/-- Sets the age at which a group is closed. -/
def withTimeout (timeout : Duration) : Settings := { c with timeout := some timeout }

/-- Sets how long a send waits for room. -/
def withSendTimeout (timeout : Duration) : Settings := { c with sendTimeout := some timeout }

/-- Sets the number of messages that may be buffered. -/
def withCapacity (capacity : Nat) : Settings := { c with capacity := some capacity }

/-- Sets whether late messages are discarded. -/
def withDiscardsLate (enabled : Bool) : Settings := { c with discardsLate := enabled }

/-- Sets whether messages with and without a sequence length must not share a group. -/
def withStrictSize (enabled : Bool) : Settings := { c with strictSize := enabled }

/-- Sets the time between two sweeps. -/
def withSweepInterval (interval : Duration) : Settings :=
  { c with sweepInterval := some interval }

/-- What makes the settings unusable; the capacity is looked at first. -/
def fault? : Option SettingsFault :=
  if c.capacity = some 0 then some .zeroCapacity
  else if c.sweepInterval = some Duration.zero then some .zeroSweepInterval
  else none

/-- The age at which a group is closed; no time at all counts as not set. -/
def effectiveTimeout : Option Duration := c.timeout.filter (!·.isZero)

/-- The time between two sweeps, the timeout if it is not set. -/
def effectiveSweepInterval : Option Duration := c.sweepInterval.or c.effectiveTimeout

/-- All settings as a record. -/
def toText : String :=
  Text.record "HandlerConfig"
    [("timeout", Text.optional Duration.toText c.timeout),
      ("send_timeout", Text.optional Duration.toText c.sendTimeout),
      ("send_partial_result_on_timeout", Text.truth c.sendsEarlyResults),
      ("release_partial_sequences", Text.truth c.releasesRuns),
      ("strict_sequence_size", Text.truth c.strictSize),
      ("discard_late_arrivals", Text.truth c.discardsLate),
      ("store_capacity", Text.optional toString c.capacity),
      ("sweep_interval", Text.optional Duration.toText c.sweepInterval)]
    false

/-- An effective timeout is some time. -/
theorem toNanos_pos_of_effectiveTimeout {t : Duration} (h : c.effectiveTimeout = some t) :
    0 < t.toNanos := by
  obtain ⟨_, hz⟩ := Option.filter_eq_some_iff.1 h
  have hn : ¬ t.isZero = true := by simpa using hz
  rw [Duration.isZero_iff] at hn
  omega

end Settings

end Regroup
