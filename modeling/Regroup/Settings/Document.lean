import Regroup.Settings.Reading
import Regroup.Yaml.Document
import Regroup.Yaml.Value

/-!
# Settings in YAML documents

The format of documents that settings are read from when the program runs. What is proved of
settings holds with any format; this one is where it is put to work.

A record is the mapping that the document consists of, and an empty document is a record without
entries. A document that is cut off is wrong at its end, and a text with more than one document is
wrong as such: both is told behind the entries.

## Main definitions

* `Regroup.Settings.DocumentFault` — what is wrong with a document, with its sentence.
* `Regroup.Settings.Held` — what an entry holds.
* `Regroup.Settings.yaml` — the format.
-/

namespace Regroup.Settings

/-! ## Faults -/

/-- What is found where something else should be. -/
inductive Found where
  /-- The value of a scalar. -/
  | value (v : Yaml.Value)
  /-- A sequence. -/
  | sequence
  /-- A mapping. -/
  | mapping
  deriving DecidableEq, Repr

/-- What should be there. -/
inductive Wanted where
  /-- The settings as a whole. -/
  | settings
  /-- The name of a field. -/
  | fieldName
  /-- A length of time. -/
  | duration
  /-- A truth value. -/
  | truth
  /-- A number of messages. -/
  | count
  /-- What a tag says, by the name of its kind. -/
  | tagged (kind : String)
  deriving DecidableEq, Repr

/-- Where something is wrong. -/
inductive Spot where
  /-- In the document as such. -/
  | document
  /-- In the value behind a name. -/
  | named (name : String)
  /-- In the value behind a name that is only referred to. -/
  | unnamed
  deriving DecidableEq, Repr

/-- What is wrong with an item. -/
inductive Mismatch where
  /-- It is of another type. -/
  | wrongType (found : Found) (wanted : Wanted)
  /-- Its text does not make sense. -/
  | wrongText (text : String) (wanted : Wanted)
  deriving DecidableEq, Repr

/-- What is wrong with a document. -/
inductive DocumentFault where
  /-- It is no document, or more than one. -/
  | unreadable
  /-- An item is not what it should be. -/
  | mismatch (spot : Spot) (m : Mismatch)
  deriving DecidableEq, Repr

/-- The words for what is found. -/
def Found.toText : Found → String
  | .value v => v.toText
  | .sequence => "sequence"
  | .mapping => "map"

/-- The words for what should be there. -/
def Wanted.toText : Wanted → String
  | .settings => "struct HandlerConfig"
  | .fieldName => "field identifier"
  | .duration => "a duration"
  | .truth => "a boolean"
  | .count => "usize"
  | .tagged kind => kind

/-- What tells in front of a sentence where something is wrong. -/
def Spot.lead : Spot → String
  | .document => ""
  | .named name => name ++ ": "
  | .unnamed => "?: "

/-- The sentence for an item that is not what it should be. -/
def Mismatch.message : Mismatch → String
  | .wrongType found wanted =>
    "invalid type: " ++ found.toText ++ ", expected " ++ wanted.toText
  | .wrongText text wanted =>
    "invalid value: string " ++ Text.quoted text ++ ", expected " ++ wanted.toText

/-- The sentence for what is wrong with a document. -/
def DocumentFault.message : DocumentFault → String
  | .unreadable => "not a document"
  | .mismatch spot m => spot.lead ++ m.message

/-! ## Values -/

/-- What an entry holds. -/
structure Held where
  /-- Where that is. -/
  spot : Spot
  /-- What it is, unless the document is cut off in front of it. -/
  item : Option Yaml.Item
  deriving DecidableEq

/-- What is wrong with an item in the place of something else. -/
def mismatch (wanted : Wanted) : Yaml.Item → Mismatch
  | .scalar s =>
    match s.value with
    | .ok v => .wrongType (.value v) wanted
    | .error m => .wrongText m.text (.tagged m.kind)
  | .sequenceStart | .sequenceEnd => .wrongType .sequence wanted
  | .mappingStart | .mappingEnd => .wrongType .mapping wanted

namespace Held

/-- What is made of the item, if it is there. -/
def get {α : Type} (of : Yaml.Item → Except DocumentFault α) (v : Held) :
    Except DocumentFault α :=
  v.item.elim (.error .unreadable) of

/-- A scalar that may not be quoted, unless as a literal block that is tagged as what it has to
be. -/
def bare {α : Type} (wanted : Wanted) (tag : String) (value? : String → Option α) (v : Held) :
    Except DocumentFault α :=
  v.get fun item =>
    let value :=
      match item with
      | .scalar s =>
        if s.style = .plain ∨ (s.style = .literal ∧ s.tag = some tag) then value? s.text else none
      | _ => none
    match value with
    | some a => .ok a
    | none => .error (.mismatch v.spot (mismatch wanted item))

/-- A truth value. -/
def truth : Held → Except DocumentFault Bool := bare .truth Yaml.booleanTag Yaml.boolean?

/-- A number of messages, which fits 64 bits. -/
def count : Held → Except DocumentFault Nat :=
  bare .count Yaml.integerTag fun text => (Yaml.whole? text).filter (· < UInt64.size)

/-- The text of a duration, in whatever way it is written. -/
def text (v : Held) : Except DocumentFault String :=
  v.get fun
    | .scalar s => .ok s.text
    | item => .error (.mismatch v.spot (mismatch .duration item))

/-- Whether the item stands for nothing: it is plain, and empty or a word for nothing. If it is
tagged as nothing, only such a word will do. -/
def isMissing (v : Held) : Except DocumentFault Bool :=
  v.get fun
    | .scalar ⟨.plain, none, text⟩ => .ok (text.isEmpty || Yaml.isNull text)
    | .scalar ⟨.plain, some tag, text⟩ =>
      if tag ≠ Yaml.nullTag then .ok false
      else if Yaml.isNull text then .ok true
      else .error (.mismatch .document (.wrongText text (.tagged "null")))
    | _ => .ok false

end Held

/-! ## Documents -/

/-- The name that an item is, in whatever way it is written. -/
def nameOf : Yaml.Item → Except DocumentFault String
  | .scalar s => .ok s.text
  | item => .error (.mismatch .document (mismatch .fieldName item))

/-- The entry of a name and what stands behind it. -/
def entryOf (key : Yaml.Place) (value : Option Yaml.Item) : Except DocumentFault (Entry Held) := do
  let name ← nameOf key.item
  return ⟨name, if key.isReference then .unnamed else .named name, value⟩

/-- The entries of a mapping, up to its end. -/
def mappingListing : List Yaml.Place → Listing Held DocumentFault
  | [] => ⟨[], some .unreadable⟩
  | [key] =>
    if key.item = .mappingEnd then ⟨[], none⟩
    else
      match entryOf key none with
      | .ok entry => ⟨[entry], some .unreadable⟩
      | .error fault => ⟨[], some fault⟩
  | key :: value :: places =>
    if key.item = .mappingEnd then ⟨[], none⟩
    else
      match entryOf key (some value.item) with
      | .ok entry =>
        let record := mappingListing places
        { record with entries := entry :: record.entries }
      | .error fault => ⟨[], some fault⟩

/-- The record in a document that starts with these places. An empty scalar in the place of the
mapping counts as an empty one. -/
def recordListing : List Yaml.Place → Listing Held DocumentFault
  | [] => ⟨[], none⟩
  | ⟨.mappingStart, _⟩ :: places => mappingListing places
  | ⟨.scalar ⟨.plain, _, ""⟩, _⟩ :: _ => ⟨[], none⟩
  | ⟨item, _⟩ :: _ => ⟨[], some (.mismatch .document (mismatch .settings item))⟩

/-- The record in a document, which must be whole and alone. -/
def documentListing (d : Yaml.Document) : Listing Held DocumentFault :=
  let record := recordListing d.places
  { record with
    fault := record.fault.or (if d.isWhole && d.isAlone then none else some .unreadable) }

/-- The format of YAML documents. -/
def yaml : Format Held DocumentFault where
  listing text := documentListing (Yaml.document text)
  isMissing := Held.isMissing
  truth := Held.truth
  count := Held.count
  text := Held.text
  noDuration v text := .mismatch v.spot (.wrongText text .duration)

end Regroup.Settings
