import Regroup.Decimal.Shortest
import Regroup.Text.Quoted
import Regroup.Yaml.Event
import Regroup.Yaml.Number

/-!
# What scalars stand for

A plain scalar without a tag stands for nothing, a truth value or a number if it is written like
one, and for its text if not; a quoted one stands for its text. A tag of the standard kinds decides
what the text has to be.

## Main definitions

* `Regroup.Yaml.Value` — the values.
* `Regroup.Yaml.Scalar.value` — what a scalar stands for, unless its tag says otherwise.
* `Regroup.Yaml.Value.toText` — a value as it is named in a message.
-/

namespace Regroup.Yaml

/-- What a scalar can stand for. -/
inductive Value where
  /-- Nothing. -/
  | null
  /-- A truth value. -/
  | boolean (b : Bool)
  /-- A whole number. -/
  | integer (n : Int)
  /-- A floating point number. -/
  | floating (x : Floating)
  /-- A text. -/
  | string (text : String)
  deriving DecidableEq, Repr

/-! ## Tags -/

/-- The tag of one of the standard kinds. -/
def standardTag (kind : String) : String := "tag:yaml.org,2002:" ++ kind

/-- The tag of nothing. -/
def nullTag : String := standardTag "null"

/-- The tag of truth values. -/
def booleanTag : String := standardTag "bool"

/-- The tag of whole numbers. -/
def integerTag : String := standardTag "int"

/-- The tag of floating point numbers. -/
def floatingTag : String := standardTag "float"

/-! ## Values of texts -/

/-- Whether the text spells nothing at all. -/
def isNull (text : String) : Bool := ["null", "Null", "NULL", "~"].contains text

/-- The truth value that a text spells. -/
def boolean? (text : String) : Option Bool :=
  if ["true", "True", "TRUE"].contains text then some true
  else if ["false", "False", "FALSE"].contains text then some false
  else none

/-- What a plain text without a tag stands for. -/
def plainValue (text : String) : Value :=
  if text.isEmpty || isNull text then .null
  else
    match boolean? text, integer? text with
    | some b, _ => .boolean b
    | none, some n => .integer n
    | none, none =>
      if hasIdleZero text.toList then .string text
      else ((floating? text).map Value.floating).getD (.string text)

/-- A text that is not what its tag says. -/
structure TagMismatch where
  /-- The text. -/
  text : String
  /-- The kind of value that the tag says, in words. -/
  kind : String
  deriving DecidableEq, Repr

/-- What a scalar stands for, unless its text is not what its tag says. -/
def Scalar.value (s : Scalar) : Except TagMismatch Value :=
  let orElse (kind : String) : Option Value → Except TagMismatch Value
    | some v => .ok v
    | none => .error ⟨s.text, kind⟩
  match s.tag with
  | none => .ok (if s.style = .plain then plainValue s.text else .string s.text)
  | some tag =>
    if tag = booleanTag then orElse "a boolean" ((boolean? s.text).map .boolean)
    else if tag = integerTag then orElse "an integer" ((integer? s.text).map .integer)
    else if tag = floatingTag then orElse "a float" ((floating? s.text).map .floating)
    else if tag = nullTag then orElse "null" (if isNull s.text then some .null else none)
    else .ok (if tag.startsWith "!" && s.style = .plain then plainValue s.text else .string s.text)

/-! ## Values in messages -/

/-- A floating point number with the fewest digits that tell it from all others. -/
def Floating.toText : Floating → String
  | .finite isNegative magnitude =>
    (if isNegative then "-" else "") ++ magnitude.shortest.toPositional
  | .infinite isNegative => if isNegative then "-inf" else "inf"
  | .notANumber => "NaN"

/-- A value as it is named in a message; whole numbers beyond 64 bits are named with the width that
they need. -/
def Value.toText : Value → String
  | .null => "unit value"
  | .boolean b => "boolean `" ++ (if b then "true" else "false") ++ "`"
  | .integer n =>
    "integer `" ++ toString n ++ "`" ++
      (if Int.pow 2 64 ≤ n then " as u128" else if n < -Int.pow 2 63 then " as i128" else "")
  | .floating x => "floating point `" ++ x.toText ++ "`"
  | .string text => "string " ++ Text.quoted text

example : (plainValue "-1e3").toText = "floating point `-1000.0`" := by decide +kernel
example : (plainValue "017").toText = "string \"017\"" := by decide +kernel

end Regroup.Yaml
