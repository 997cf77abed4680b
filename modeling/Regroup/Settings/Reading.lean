import Regroup.Settings.Basic
import Regroup.Time.DurationSum

/-!
# Reading settings

Settings can be written as a record in a document: names of fields, each with a value. Fields may be
missing, but none may be there twice. The first thing that is wrong is what gets reported.

Documents and durations are read by libraries, which are parameters here. The library for documents
is a `Regroup.Settings.Format`: it lists the entries of a text in the order of the document and
makes truth values, counts and texts of what they hold. The library for durations is a function on
texts.

## Main definitions

* `Regroup.Settings.Field` — the fields and their names.
* `Regroup.Settings.Format` — a library for documents.
* `Regroup.Settings.ReadFault` — why a text gives no settings, with its sentence.
* `Regroup.Settings.readEntry`, `Regroup.Settings.read` — the settings in an entry, in a text.
* `Regroup.Settings.load` — the settings in a file.
-/

namespace Regroup.Settings

/-! ## Fields -/

/-- A field of the settings. -/
inductive Field where
  /-- The age at which a group is closed. -/
  | timeout
  /-- How long a send waits for room. -/
  | sendTimeout
  /-- Whether groups that are closed early send what they have. -/
  | sendsEarlyResults
  /-- Whether runs are released. -/
  | releasesRuns
  /-- Whether the sequence length is compared strictly. -/
  | strictSize
  /-- Whether late messages are discarded. -/
  | discardsLate
  /-- How many messages may be buffered. -/
  | capacity
  /-- The time between two sweeps. -/
  | sweepInterval
  deriving DecidableEq, Repr

namespace Field

/-- The name of a field in a document. -/
def name : Field → String
  | timeout => "timeout"
  | sendTimeout => "send_timeout"
  | sendsEarlyResults => "send_partial_result_on_timeout"
  | releasesRuns => "release_partial_sequences"
  | strictSize => "strict_sequence_size"
  | discardsLate => "discard_late_arrivals"
  | capacity => "store_capacity"
  | sweepInterval => "sweep_interval"

/-- All fields. -/
def all : List Field :=
  [timeout, sendTimeout, sendsEarlyResults, releasesRuns, strictSize, discardsLate, capacity,
    sweepInterval]

/-- The field of a name. -/
def ofName? (name : String) : Option Field := all.find? (·.name = name)

end Field

/-! ## Documents -/

/-- A name in a document, and the value behind it. -/
structure Entry (V : Type) where
  /-- The name. -/
  name : String
  /-- The value. -/
  value : V
  deriving DecidableEq, Repr

/-- The record in a text, as far as it can be read. -/
structure Listing (V E : Type) where
  /-- Its entries, in the order of the document. -/
  entries : List (Entry V)
  /-- What is wrong behind them, or with the document as such. -/
  fault : Option E
  deriving DecidableEq, Repr

/-- A library that reads documents, with values in `V` and faults in `E`. -/
structure Format (V E : Type) where
  /-- The record in a text. -/
  listing : String → Listing V E
  /-- Whether a value stands for nothing. -/
  isMissing : V → Except E Bool
  /-- A value as a truth value. -/
  truth : V → Except E Bool
  /-- A value as a number that fits 64 bits. -/
  count : V → Except E Nat
  /-- A value as a text. -/
  text : V → Except E String
  /-- The fault of a value whose text is no duration. -/
  noDuration : V → String → E

/-- Why a text gives no settings, with faults of the document in `E`. -/
inductive ReadFault (E : Type) where
  /-- The library has told a fault of the document. -/
  | told (fault : E)
  /-- There is no field of this name. -/
  | unknownField (name : String)
  /-- The field is there more than once. -/
  | repeatedField (f : Field)
  /-- The settings are unusable. -/
  | unusable (fault : SettingsFault)
  /-- The sum of a duration leaves the range of durations at its last carry. -/
  | overflow
  deriving DecidableEq, Repr

/-- The sentence for a text that gives no settings. -/
def ReadFault.message {E : Type} (sentence : E → String) : ReadFault E → String
  | .told fault => sentence fault
  | .unknownField name =>
    "unknown field `" ++ name ++ "`, expected one of " ++
      ", ".intercalate (Field.all.map fun f => "`" ++ f.name ++ "`")
  | .repeatedField f => "duplicate field `" ++ f.name ++ "`"
  | .unusable fault => fault.message
  | .overflow => "overflow in Duration::new"

/-! ## Values -/

section

variable {V E : Type} (format : Format V E)
  (duration : String → Except Duration.Fault Duration)

/-- Reads a duration. -/
def readDuration (v : V) : Except (ReadFault E) Duration := do
  let text ← (format.text v).mapError .told
  match duration text with
  | .ok d => .ok d
  | .error .unreadable => .error (.told (format.noDuration v text))
  | .error .overflow => .error .overflow

/-- Reads what may be missing. -/
def readOptional {α : Type} (value : V → Except (ReadFault E) α) (v : V) :
    Except (ReadFault E) (Option α) := do
  if ← (format.isMissing v).mapError .told then .ok none else some <$> value v

/-- Reads an optional duration. -/
def readTime : V → Except (ReadFault E) (Option Duration) :=
  readOptional format (readDuration format duration)

/-- Reads a truth value. -/
def readTruth (v : V) : Except (ReadFault E) Bool := (format.truth v).mapError .told

/-- Reads an optional number of messages. -/
def readCount : V → Except (ReadFault E) (Option Nat) :=
  readOptional format fun v => (format.count v).mapError .told

/-- Sets a field to what a value says. -/
def readField (c : Settings) (f : Field) (v : V) : Except (ReadFault E) Settings := do
  match f with
  | .timeout => return { c with timeout := ← readTime format duration v }
  | .sendTimeout => return { c with sendTimeout := ← readTime format duration v }
  | .sendsEarlyResults => return { c with sendsEarlyResults := ← readTruth format v }
  | .releasesRuns => return { c with releasesRuns := ← readTruth format v }
  | .strictSize => return { c with strictSize := ← readTruth format v }
  | .discardsLate => return { c with discardsLate := ← readTruth format v }
  | .capacity => return { c with capacity := ← readCount format v }
  | .sweepInterval => return { c with sweepInterval := ← readTime format duration v }

/-! ## Records -/

/-- Reads an entry into the settings from the fields `seen` so far. -/
def readEntry (sofar : Settings × List Field) (entry : Entry V) :
    Except (ReadFault E) (Settings × List Field) :=
  let (c, seen) := sofar
  match Field.ofName? entry.name with
  | none => .error (.unknownField entry.name)
  | some f =>
    if f ∈ seen then .error (.repeatedField f)
    else do return (← readField format duration c f entry.value, f :: seen)

/-- The settings in a text, all of them off by default. -/
def read (text : String) : Except (ReadFault E) Settings := do
  let record := format.listing text
  let (c, _) ← record.entries.foldlM (readEntry format duration) (default, [])
  match record.fault, c.fault? with
  | some fault, _ => .error (.told fault)
  | none, some fault => .error (.unusable fault)
  | none, none => .ok c

end

/-! ## Files -/

/-- Why a file gives no settings. -/
inductive LoadFault (E : Type) where
  /-- There is no such file, or it holds no text. -/
  | noText
  /-- The text gives no settings. -/
  | contents (fault : ReadFault E)
  deriving DecidableEq, Repr

/-- The sentence for a file that gives no settings. -/
def LoadFault.message {E : Type} (path : String) : LoadFault E → String
  | .noText => "Failed to read config file: " ++ path
  | .contents _ => "Failed to parse config file: " ++ path

/-- The settings in a file, of which the bytes are given if it could be read. -/
def load {V E : Type} (format : Format V E)
    (duration : String → Except Duration.Fault Duration) (bytes : Option ByteArray) :
    Except (LoadFault E) Settings :=
  match bytes.bind String.fromUTF8? with
  | none => .error .noText
  | some text =>
    match read format duration text with
    | .ok c => .ok c
    | .error fault => .error (.contents fault)

end Regroup.Settings
