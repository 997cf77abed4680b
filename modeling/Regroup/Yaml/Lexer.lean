import Regroup.Yaml.Property

/-!
# From text to tokens

Whether a node is the key of a mapping is known only when the colon behind it is reached. The lexer
therefore remembers where a key could begin and puts the tokens that announce it in afterwards. A
token behind which such a place is still open is not certain yet; when the text turns out to be
unreadable, only the certain tokens count as read.

## Main definitions

* `Regroup.Yaml.Lexer` — the state of the lexer.
* `Regroup.Yaml.Lexer.advance` — reads the next token or two.
* `Regroup.Yaml.Tokens` — the tokens that are certain, and whether they are all there are.
* `Regroup.Yaml.tokens` — the tokens of a text.
-/

namespace Regroup.Yaml

/-- A place where the key of a mapping could begin. -/
structure KeyPlace where
  /-- The number of the token that would be announced as a key. -/
  number : Nat
  /-- The number of bytes in front of it. -/
  index : Nat
  /-- The line. -/
  line : Nat
  /-- The column. -/
  column : Nat
  /-- Whether a key is the only thing that can stand there. -/
  required : Bool

/-- The state of the lexer. -/
structure Lexer where
  /-- The text still to be read. -/
  rest : List Char
  /-- The number of bytes read, in UTF-8, with one for every line break. -/
  index : Nat
  /-- The line, from zero. -/
  line : Nat
  /-- The column, from zero. -/
  column : Nat
  /-- The tokens read, the last in front. -/
  tokens : List Token
  /-- The indentation of the innermost block collection, below zero outside of all. -/
  indent : Int
  /-- The indentations around it, the innermost in front. -/
  outerIndents : List Int
  /-- Whether a key may begin here. -/
  keyAllowed : Bool
  /-- The open place for a key in the innermost bracket or block. -/
  place : Option KeyPlace
  /-- The open places around it, one for each bracket, the innermost in front. -/
  outerPlaces : List (Option KeyPlace)
  /-- Whether the end of the text has been read. -/
  ended : Bool
  /-- Whether `rest` leads to the end of the text, and not only to something unreadable. -/
  isWhole : Bool

namespace Lexer

/-- The lexer at the beginning of a text. -/
def start (text : Readable) : Lexer :=
  ⟨text.chars, 0, 0, 0, [.streamStart], -1, [], true, none, [], false, text.isWhole⟩

variable (l : Lexer)

/-- Whether the lexer can look at the character behind the next `n`, or sees that the text ends
before. -/
def canSee (n : Nat) : Bool := l.isWhole || !(l.rest.drop n).isEmpty

/-- Whether the lexer is between brackets. -/
def inFlow : Bool := !l.outerPlaces.isEmpty

/-- The lexer with one more token. -/
def emit (t : Token) : Lexer := { l with tokens := t :: l.tokens }

/-- The lexer with a token put in as the one of a number. -/
def emitAt (number : Nat) (t : Token) : Lexer :=
  let later := l.tokens.length - number
  { l with tokens := l.tokens.take later ++ t :: l.tokens.drop later }

/-- The lexer behind a character. -/
def skip (c : Char) : Lexer :=
  if isBreak c then { l with index := l.index + 1, line := l.line + 1, column := 0 }
  else { l with index := l.index + c.utf8Size, column := l.column + 1 }

/-- The lexer at a later place of the text, given by what is left there. -/
def moveTo (rest : List Char) : Lexer :=
  { (l.rest.take (l.rest.length - rest.length)).foldl skip l with rest }

/-! ## Places for keys -/

/-- Closes the places that lie on an earlier line or more than 1024 bytes back: a key that is not
marked as one is short. It is an error if one of them required a key. -/
def closeStalePlaces : Option Lexer := do
  let check (place : Option KeyPlace) : Option (Option KeyPlace) :=
    match place with
    | some p =>
      if p.line < l.line || p.index + 1024 < l.index then
        if p.required then none else some none
      else some (some p)
    | none => some none
  let place ← check l.place
  let outerPlaces ← l.outerPlaces.mapM check
  return { l with place, outerPlaces }

/-- Closes the innermost place. It is an error if it required a key. -/
def closePlace : Option Lexer :=
  if l.place.any (·.required) then none else some { l with place := none }

/-- Opens a place for a key here, if a key may begin here. -/
def openPlace : Option Lexer :=
  if l.keyAllowed then do
    let required := !l.inFlow && l.indent = (l.column : Int)
    let l ← l.closePlace
    return { l with place := some ⟨l.tokens.length, l.index, l.line, l.column, required⟩ }
  else some l

/-! ## Indentation -/

/-- Opens a block collection at a column, if it is deeper than the one around it, and puts its token
in as the one of a number. -/
def indentTo (column number : Nat) (t : Token) : Lexer :=
  if !l.inFlow && l.indent < (column : Int) then
    { l.emitAt number t with indent := column, outerIndents := l.indent :: l.outerIndents }
  else l

/-- The number of open block collections, and the indentation left, when those deeper than a column
are closed. -/
def closeIndents (column : Int) (indent : Int) : List Int → Nat × Int × List Int
  | [] => (0, indent, [])
  | outer :: rest =>
    if column < indent then
      let (closed, indent, rest) := closeIndents column outer rest
      (closed + 1, indent, rest)
    else (0, indent, outer :: rest)

/-- Closes the block collections that are deeper than a column. -/
def dedentTo (column : Int) : Lexer :=
  if l.inFlow then l
  else
    let (closed, indent, outerIndents) := closeIndents column l.indent l.outerIndents
    { l with tokens := List.replicate closed .blockEnd ++ l.tokens, indent, outerIndents }

/-! ## Blanks and comments -/

/-- The text behind blanks, comments and line breaks, and whether a key may begin there. Outside of
brackets one may behind every line break, and tabs are skipped only where none may. -/
def skipGap (inFlow : Bool) (column : Nat) (keyAllowed inComment : Bool) :
    List Char → List Char × Bool
  | [] => ([], keyAllowed)
  | c :: rest =>
    if isBreak c then skipGap inFlow 0 (keyAllowed || !inFlow) false rest
    else if inComment then skipGap inFlow (column + 1) keyAllowed true rest
    else if c = ' ' || (c = '\t' && (inFlow || !keyAllowed)) ||
        (c = byteOrderMark && column = 0) then
      skipGap inFlow (column + 1) keyAllowed false rest
    else if c = '#' then skipGap inFlow (column + 1) keyAllowed true rest
    else (c :: rest, keyAllowed)

/-! ## The single tokens -/

/-- The end of the text closes everything, and the line that it stands on. -/
def readEnd : Option Lexer := do
  let line := if l.column = 0 then l.line else l.line + 1
  let l ← ({ l with column := 0, line }.dedentTo (-1)).closePlace
  return { l.emit .streamEnd with keyAllowed := false, ended := true }

/-- A token at the beginning of a line that closes all block collections. -/
def readBoundary (t : Token) (rest : List Char) : Option Lexer := do
  let l ← (l.dedentTo (-1)).closePlace
  return { (l.moveTo rest).emit t with keyAllowed := false }

/-- An opening bracket or brace. -/
def readOpening (t : Token) (rest : List Char) : Option Lexer := do
  let l ← l.openPlace
  let l := { l with place := none, outerPlaces := l.place :: l.outerPlaces }
  return { (l.moveTo rest).emit t with keyAllowed := true }

/-- A closing bracket or brace. -/
def readClosing (t : Token) (rest : List Char) : Option Lexer := do
  let l ← l.closePlace
  let l :=
    match l.outerPlaces with
    | [] => l
    | place :: outerPlaces => { l with place, outerPlaces }
  return { (l.moveTo rest).emit t with keyAllowed := false }

/-- A comma. -/
def readComma (rest : List Char) : Option Lexer := do
  let l ← l.closePlace
  return { (l.moveTo rest).emit .flowEntry with keyAllowed := true }

/-- A hyphen in front of an entry. -/
def readHyphen (rest : List Char) : Option Lexer := do
  guard (l.inFlow || l.keyAllowed)
  let l ← (l.indentTo l.column l.tokens.length .blockSequenceStart).closePlace
  return { (l.moveTo rest).emit .blockEntry with keyAllowed := true }

/-- A question mark in front of a key. -/
def readQuestion (rest : List Char) : Option Lexer := do
  guard (l.inFlow || l.keyAllowed)
  let l ← (l.indentTo l.column l.tokens.length .blockMappingStart).closePlace
  return { (l.moveTo rest).emit .key with keyAllowed := !l.inFlow }

/-- A colon in front of a value. If a place for a key is open, what stands there is a key. -/
def readColon (rest : List Char) : Option Lexer :=
  match l.place with
  | some place =>
    let l := (l.emitAt place.number .key).indentTo place.column place.number .blockMappingStart
    some { (l.moveTo rest).emit .value with place := none, keyAllowed := false }
  | none => do
    guard (l.inFlow || l.keyAllowed)
    let l := l.indentTo l.column l.tokens.length .blockMappingStart
    return { (l.moveTo rest).emit .value with keyAllowed := !l.inFlow }

/-- A token that may begin a key. -/
def readNodePart (read : Option (Token × List Char)) : Option Lexer := do
  let l ← l.openPlace
  let (t, rest) ← read
  return { (l.moveTo rest).emit t with keyAllowed := false }

/-- A scalar without marks. When the blanks behind it went over a line break, a key may follow. -/
def readWords : Option Lexer := do
  let l ← l.openPlace
  let scalar ← readPlain l.inFlow (l.indent + 1).toNat l.column Gap.none false [] l.rest
  return { (l.moveTo scalar.rest).emit (.scalar .plain scalar.text) with
    keyAllowed := scalar.brokeLine }

/-- A block scalar behind its indicator. -/
def readBlockScalar (literal : Bool) (rest : List Char) : Option Lexer := do
  let l ← l.closePlace
  let (header, rest) ← readBlockHeader rest
  let indent := if header.increment = 0 then 0 else (max l.indent 0).toNat + header.increment
  let (text, rest) ←
    readBlock literal header.chomping (l.indent + 1).toNat .indentation 0
      ⟨indent, 0, [], none, [], false⟩ rest
  let style := if literal then Style.literal else .folded
  return { (l.moveTo rest).emit (.scalar style text) with keyAllowed := true }

/-- Whether a scalar without marks may begin with a text. -/
def beginsPlain (inFlow : Bool) : List Char → Bool
  | [] => false
  | c :: rest =>
    if c = '-' then !rest.head?.any isBlank
    else if c = '?' || c = ':' then !inFlow && !endsWord rest
    else !(isBlank c || isBreak c || ",[]\x7b\x7d#&*!|>'\"%@`".toList.contains c)

/-- Reads the next token, with what has to be put in because of it. -/
def advance : Option Lexer := do
  let (rest, keyAllowed) := skipGap l.inFlow l.column l.keyAllowed false l.rest
  let l ← ({ l.moveTo rest with keyAllowed }).closeStalePlaces
  let l := l.dedentTo l.column
  guard (l.canSee 3)
  match l.rest with
  | [] => l.readEnd
  | c :: rest =>
    if c = '%' && l.column = 0 then
      let (t, rest) ← readDirective rest
      l.readBoundary t rest
    else if l.column = 0 && atDocumentMark l.rest then
      l.readBoundary (if c = '-' then .documentStart else .documentEnd) (l.rest.drop 3)
    else if c = '[' then l.readOpening .flowSequenceStart rest
    else if c = '\x7b' then l.readOpening .flowMappingStart rest
    else if c = ']' then l.readClosing .flowSequenceEnd rest
    else if c = '\x7d' then l.readClosing .flowMappingEnd rest
    else if c = ',' then l.readComma rest
    else if c = '-' && endsWord rest then l.readHyphen rest
    else if c = '?' && (l.inFlow || endsWord rest) then l.readQuestion rest
    else if c = ':' && (l.inFlow || endsWord rest) then l.readColon rest
    else if c = '*' then l.readNodePart ((readName rest).map fun n => (.alias n.1, n.2))
    else if c = '&' then l.readNodePart ((readName rest).map fun n => (.anchor n.1, n.2))
    else if c = '!' then l.readNodePart (readTag l.inFlow l.rest)
    else if (c = '|' || c = '>') && !l.inFlow then l.readBlockScalar (c = '|') rest
    else if c = '\'' then
      l.readNodePart ((readSingleQuoted (l.column + 1) Gap.none [] rest).map fun s =>
        (.scalar .quoted s.1, s.2))
    else if c = '"' then
      l.readNodePart ((readDoubleQuoted (l.column + 1) Gap.none none [] rest).map fun s =>
        (.scalar .quoted s.1, s.2))
    else if beginsPlain l.inFlow l.rest then l.readWords
    else none

/-- The tokens that are certain, in order: those in front of the first open place for a key. -/
def certain : List Token :=
  l.tokens.reverse.take ((l.place :: l.outerPlaces).foldl
    (fun n place =>
      match place with
      | some p => min n p.number
      | none => n)
    l.tokens.length)

end Lexer

/-! ## All tokens -/

/-- The tokens of a text that are certain. -/
structure Tokens where
  /-- The tokens in order. -/
  tokens : List Token
  /-- Whether they are all there are; if not, the text cannot be read any further. -/
  complete : Bool

/-- Reads tokens to the end of the text or to an error, at most `rounds` times. -/
def readTokens : Nat → Lexer → Tokens
  | 0, l => ⟨l.certain, false⟩
  | rounds + 1, l =>
    if l.ended then ⟨l.tokens.reverse, true⟩
    else
      match (l.advance.filter (·.canSee 0)).bind Lexer.closeStalePlaces with
      | some next => readTokens rounds next
      | none => ⟨l.certain, false⟩

/-- The tokens of a text. Every round but the last takes a character. -/
def tokens (text : String) : Tokens :=
  let text := readable text
  readTokens (text.chars.length + 2) (Lexer.start text)

end Regroup.Yaml
