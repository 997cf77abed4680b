import Regroup.Decimal.Binary
import Regroup.Yaml.Character

/-!
# Numbers in scalars

How the text of a scalar is read as a number. A number that begins with a zero and has further
digits is none at all, unless it has a fraction, an exponent or the mark of another base.

## Main definitions

* `Regroup.Yaml.digitsIn?` — digits in a base as a number.
* `Regroup.Yaml.whole?` — a number without a minus sign.
* `Regroup.Yaml.integer?` — a number with or without one, of at most 128 bits.
* `Regroup.Yaml.Floating`, `Regroup.Yaml.floating?` — a floating point number.
-/

namespace Regroup.Yaml

/-! ## Whole numbers -/

/-- The number that one or more digits in a base of at most sixteen stand for. -/
def digitsIn? (base : Nat) (cs : List Char) : Option Nat :=
  if cs.isEmpty then none
  else cs.foldlM (fun n c => ((hexValue? c).filter (· < base)).map (n * base + ·)) 0

/-- The text without a plus sign in front. -/
def withoutPlus : List Char → List Char
  | '+' :: rest => rest
  | cs => cs

/-- Whether the text, but for a sign, is a zero with further digits behind it. -/
def hasIdleZero (cs : List Char) : Bool :=
  let digits :=
    match cs with
    | '-' :: rest => rest
    | cs => withoutPlus cs
  match digits with
  | '0' :: d :: rest => (d :: rest).all Char.isDigit
  | _ => false

/-- A number without a sign, whose base may be marked in front. -/
def magnitude? : List Char → Option Nat
  | '0' :: 'x' :: rest => digitsIn? 16 rest
  | '0' :: 'o' :: rest => digitsIn? 8 rest
  | '0' :: 'b' :: rest => digitsIn? 2 rest
  | cs => if hasIdleZero cs then none else digitsIn? 10 cs

/-- A number without a minus sign. -/
def whole? (text : String) : Option Nat := magnitude? (withoutPlus text.toList)

/-- A number with or without a minus sign, as far as 128 bits go. -/
def integer? (text : String) : Option Int :=
  match text.toList with
  | '-' :: rest =>
    ((magnitude? rest).filter (· ≤ Nat.pow 2 127)).map fun n => -(n : Int)
  | _ => ((whole? text).filter (· < Nat.pow 2 128)).map fun n => (n : Int)

/-! ## Floating point numbers -/

/-- A floating point number of 64 bits. -/
inductive Floating where
  /-- A sign and a magnitude. -/
  | finite (isNegative : Bool) (magnitude : Binary)
  /-- A number beyond all others. -/
  | infinite (isNegative : Bool)
  /-- Not a number. -/
  | notANumber
  deriving DecidableEq, Repr

/-- The power of ten behind the mark of an exponent, zero without such a mark. -/
def exponent? : List Char → Option Int
  | [] => some 0
  | mark :: rest =>
    if mark = 'e' || mark = 'E' then
      match rest with
      | '-' :: digits => (digitsIn? 10 digits).map fun n => -(n : Int)
      | digits => (digitsIn? 10 (withoutPlus digits)).map fun n => (n : Int)
    else none

/-- A decimal number without a sign: digits, of which those behind a point make its exponent
smaller, and an exponent. There must be a digit on at least one side of the point. -/
def decimal? (cs : List Char) : Option Decimal := do
  let whole := cs.takeWhile Char.isDigit
  let (fraction, rest) :=
    match cs.dropWhile Char.isDigit with
    | '.' :: rest => (rest.takeWhile Char.isDigit, rest.dropWhile Char.isDigit)
    | rest => ([], rest)
  let digits ← digitsIn? 10 (whole ++ fraction)
  let exponent ← exponent? rest
  return ⟨digits, exponent - fraction.length⟩

/-- The spellings of infinity, behind a sign or without one. -/
def infinities : List String := [".inf", ".Inf", ".INF"]

/-- The spellings of what is no number. -/
def notNumbers : List String := [".nan", ".NaN", ".NAN"]

/-- A floating point number behind its sign, as long as it is not too large for 64 bits. -/
def unsignedFloating? (isNegative : Bool) (cs : List Char) : Option Floating :=
  if infinities.contains (String.ofList cs) then some (.infinite isNegative)
  else ((decimal? cs).bind Binary.nearest?).map (.finite isNegative)

/-- A floating point number, as long as it is not too large for 64 bits. -/
def floating? (text : String) : Option Floating :=
  if notNumbers.contains text then some .notANumber
  else
    match text.toList with
    | '-' :: rest => unsignedFloating? true rest
    | cs => unsignedFloating? false (withoutPlus cs)

end Regroup.Yaml
