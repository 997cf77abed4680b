/-!
# Characters of YAML

The classes of characters that YAML tells apart, and the preparation of a text: all line breaks but
the two Unicode separators become line feeds, and a character that no document may hold makes the
text unreadable from the beginning of its block on.

## Main definitions

* `Regroup.Yaml.isBreak`, `Regroup.Yaml.isBlank`, `Regroup.Yaml.isWordChar` — classes.
* `Regroup.Yaml.hexValue?` — the value of a hexadecimal digit.
* `Regroup.Yaml.endsWord` — whether what follows is a blank, a break or the end.
* `Regroup.Yaml.readable` — what can be read of a text.
-/

namespace Regroup.Yaml

/-- Whether the character ends a line: a line feed, or one of the Unicode separators. -/
def isBreak (c : Char) : Bool := c = '\n' || c = '\u2028' || c = '\u2029'

/-- Whether the character is a space or a tab. -/
def isBlank (c : Char) : Bool := c = ' ' || c = '\t'

/-- Whether the character may stand in names: a letter or digit of ASCII, a hyphen or an
underscore. -/
def isWordChar (c : Char) : Bool := c.isAlphanum || c = '-' || c = '_'

/-- The value of a hexadecimal digit. -/
def hexValue? (c : Char) : Option Nat :=
  if c.isDigit then some (c.toNat - '0'.toNat)
  else if 'a' ≤ c && c ≤ 'f' then some (c.toNat - 'a'.toNat + 10)
  else if 'A' ≤ c && c ≤ 'F' then some (c.toNat - 'A'.toNat + 10)
  else none

/-- Whether the character marks the beginning or the end of a flow collection or of an entry. -/
def isFlowIndicator (c : Char) : Bool :=
  c = ',' || c = '[' || c = ']' || c = '\x7b' || c = '\x7d'

/-- Whether the text begins with a blank or a break, or is at its end. -/
def endsWord : List Char → Bool
  | [] => true
  | c :: _ => isBlank c || isBreak c

/-- Whether the text begins with the mark that opens or closes a document. -/
def atDocumentMark : List Char → Bool
  | '-' :: '-' :: '-' :: rest => endsWord rest
  | '.' :: '.' :: '.' :: rest => endsWord rest
  | _ => false

/-- Whether a document may hold the character: a tab, a line break or anything printable. -/
def isAllowed (c : Char) : Bool :=
  c = '\t' || c = '\n' || c = '\r' || (0x20 ≤ c.toNat && c.toNat ≤ 0x7E) || c.toNat = 0x85 ||
    (0xA0 ≤ c.toNat && c.toNat ≤ 0xFFFD) || 0x10000 ≤ c.toNat

/-- The text with every carriage return, with or without a line feed, and every next-line character
as a line feed. -/
def unifyBreaks : List Char → List Char
  | [] => []
  | '\r' :: '\n' :: rest => '\n' :: unifyBreaks rest
  | c :: rest => (if c = '\r' || c = '\u0085' then '\n' else c) :: unifyBreaks rest

/-- The byte order mark. It may stand at the beginning of any line and takes a column there, so that
what follows it is indented by one. -/
def byteOrderMark : Char := '\ufeff'

/-- The size in bytes of the blocks in which a text is examined. -/
def blockSize : Nat := 16384

/-- How many characters stand in front of the first block that holds a character that no document
may hold, and whether there is no such block. A block is filled with whole characters as long as
they fit. The current one begins at the character number `start` and has `room` bytes left. -/
def goodLength (position start room : Nat) : List Char → Nat × Bool
  | [] => (position, true)
  | c :: rest =>
    let (start, room) := if c.utf8Size ≤ room then (start, room) else (position, blockSize)
    if isAllowed c then goodLength (position + 1) start (room - c.utf8Size) rest else (start, false)

/-- What can be read of a text. -/
structure Readable where
  /-- The characters, with unified breaks. -/
  chars : List Char
  /-- Whether they are all there are. -/
  isWhole : Bool

/-- What can be read of a text: the blocks in front of the first that no document may hold. -/
def readable (text : String) : Readable :=
  let (length, isWhole) := goodLength 0 0 blockSize text.toList
  ⟨unifyBreaks (text.toList.take length), isWhole⟩

end Regroup.Yaml
