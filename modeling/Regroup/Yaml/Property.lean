import Regroup.Yaml.BlockScalar
import Regroup.Yaml.FlowScalar
import Regroup.Yaml.Token

/-!
# Anchors, tags and directives

The pieces of a document that say something about a node or about the document itself.

## Main definitions

* `Regroup.Yaml.readName` — the name of an anchor or of a reference to one.
* `Regroup.Yaml.readTag` — the tag of a node.
* `Regroup.Yaml.readDirective` — a directive with the rest of its line.
-/

namespace Regroup.Yaml

/-! ## Anchors -/

/-- Whether a text may follow a name: a blank, a break, the end, or one of some marks. -/
def endsName : List Char → Bool
  | [] => true
  | c :: _ => isBlank c || isBreak c || "?:,]\x7d%@`".toList.contains c

/-- Reads a name, which is not empty. -/
def readName (cs : List Char) : Option (String × List Char) :=
  let name := cs.takeWhile isWordChar
  let rest := cs.dropWhile isWordChar
  if !name.isEmpty && endsName rest then some (String.ofList name, rest) else none

/-! ## Tags -/

/-- Whether the character may stand in a tag. Flow indicators other than braces may only in a tag
that is written between angle brackets. -/
def isTagChar (inBrackets : Bool) (c : Char) : Bool :=
  isWordChar c || ";/?:@&=+$.%!~*'()".toList.contains c ||
    (inBrackets && (c = ',' || c = '[' || c = ']'))

/-- The number of bytes of the character whose encoding begins with a byte, if one does. -/
def encodedLength? (first : Nat) : Option Nat :=
  if first < 0x80 then some 1
  else if first / 0x20 = 0x6 then some 2
  else if first / 0x10 = 0xE then some 3
  else if first / 0x8 = 0x1E then some 4
  else none

/-- The character that some bytes encode. -/
def decodeBytes? (bytes : List Nat) : Option Char :=
  match (String.fromUTF8? ⟨(bytes.map UInt8.ofNat).toArray⟩).map String.toList with
  | some [c] => some c
  | _ => none

/-- Reads the rest of a tag. A percent sign stands in front of the two hexadecimal digits of a byte
of an encoded character; `wanted` says how many bytes of one are still to come, and `bytes` holds
those before, the last in front. -/
def readTagText (inBrackets : Bool) (wanted : Nat) (bytes : List Nat) (acc : List Char) :
    List Char → Option (List Char × List Char)
  | [] => if wanted = 0 then some (acc.reverse, []) else none
  | '%' :: high :: low :: rest =>
    match hexValue? high, hexValue? low with
    | some high, some low =>
      let byte := high * 16 + low
      let bytes := byte :: bytes
      let left := if wanted = 0 then encodedLength? byte else some wanted
      match left with
      | some 1 =>
        match decodeBytes? bytes.reverse with
        | some c => readTagText inBrackets 0 [] (c :: acc) rest
        | none => none
      | some left => readTagText inBrackets (left - 1) bytes acc rest
      | none => none
    | _, _ => none
  | c :: rest =>
    if wanted ≠ 0 || c = '%' then none
    else if isTagChar inBrackets c then readTagText inBrackets 0 [] (c :: acc) rest
    else some (acc.reverse, c :: rest)

/-- Reads a handle: an exclamation mark, a name and perhaps another exclamation mark. -/
def readHandle : List Char → Option (List Char × List Char)
  | '!' :: cs =>
    let name := cs.takeWhile isWordChar
    match cs.dropWhile isWordChar with
    | '!' :: rest => some ('!' :: name ++ ['!'], rest)
    | rest => some ('!' :: name, rest)
  | _ => none

/-- Whether a tag may end in front of a text. -/
def endsTag (inFlow : Bool) : List Char → Bool
  | [] => true
  | c :: _ => isBlank c || isBreak c || (inFlow && c = ',')

/-- Reads a tag: in angle brackets, behind a handle of its own, or with the handle `!`. An
exclamation mark alone is a tag without a handle. -/
def readTag (inFlow : Bool) (cs : List Char) : Option (Token × List Char) := do
  match cs with
  | '!' :: '<' :: cs =>
    let (suffix, rest) ← readTagText true 0 [] [] cs
    match rest with
    | '>' :: rest =>
      guard (!suffix.isEmpty && endsTag inFlow rest)
      return (.tag "" (String.ofList suffix), rest)
    | _ => none
  | _ =>
    let (handle, behind) ← readHandle cs
    if 1 < handle.length && handle.getLast? = some '!' then
      let (suffix, rest) ← readTagText false 0 [] [] behind
      guard (!suffix.isEmpty && endsTag inFlow rest)
      return (.tag (String.ofList handle) (String.ofList suffix), rest)
    else
      let (more, rest) ← readTagText false 0 [] [] behind
      let suffix := handle.drop 1 ++ more
      guard (endsTag inFlow rest)
      if suffix.isEmpty then return (.tag "" "!", rest)
      else return (.tag "!" (String.ofList suffix), rest)

/-! ## Directives -/

/-- Reads a number of at most nine digits. -/
def readVersionPart (cs : List Char) : Option (Nat × List Char) := do
  let digits := cs.takeWhile Char.isDigit
  guard (!digits.isEmpty && digits.length ≤ 9)
  return (digits.foldl (fun n c => n * 10 + (c.toNat - '0'.toNat)) 0, cs.dropWhile Char.isDigit)

/-- Reads a directive behind its percent sign, with the rest of its line. -/
def readDirective (cs : List Char) : Option (Token × List Char) := do
  let name := cs.takeWhile isWordChar
  let behind := cs.dropWhile isWordChar
  guard (!name.isEmpty && endsWord behind)
  let behind := behind.dropWhile isBlank
  if name = "YAML".toList then
    let (major, rest) ← readVersionPart behind
    match rest with
    | '.' :: rest =>
      let (minor, rest) ← readVersionPart rest
      return (.version major minor, ← finishLine rest)
    | _ => none
  else if name = "TAG".toList then
    let (handle, rest) ← readHandle behind
    guard (handle.length = 1 || handle.getLast? = some '!')
    match rest with
    | c :: _ =>
      guard (isBlank c)
      let (start, rest) ← readTagText true 0 [] [] (rest.dropWhile isBlank)
      guard (!start.isEmpty && endsWord rest)
      return (.tagHandle (String.ofList handle) (String.ofList start), ← finishLine rest)
    | [] => none
  else none

end Regroup.Yaml
