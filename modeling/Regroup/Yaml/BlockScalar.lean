import Regroup.Yaml.Character

/-!
# Block scalars

A block scalar is a run of indented lines behind an indicator. Literal blocks keep their line
breaks; folded ones join lines that begin with a word by a space. What becomes of the breaks at the
end is told by a mark in the header.

## Main definitions

* `Regroup.Yaml.Chomping`, `Regroup.Yaml.BlockHeader` — what the header line says.
* `Regroup.Yaml.readBlockHeader` — reads it.
* `Regroup.Yaml.readBlock` — reads the lines.
-/

namespace Regroup.Yaml

/-- What becomes of the line breaks at the end of a block. -/
inductive Chomping where
  /-- None of them is kept. -/
  | strip
  /-- The first of them is kept. -/
  | clip
  /-- All of them are kept. -/
  | keep
  deriving DecidableEq

/-- What the header of a block scalar says. -/
structure BlockHeader where
  /-- What becomes of the line breaks at the end. -/
  chomping : Chomping
  /-- By how much the lines are indented beyond their surroundings, zero if not told. -/
  increment : Nat

/-! ## The header -/

/-- A chomping mark in front of a text, and the rest. -/
def takeChomping : List Char → Option Chomping × List Char
  | '+' :: rest => (some .keep, rest)
  | '-' :: rest => (some .strip, rest)
  | cs => (none, cs)

/-- An indentation digit in front of a text, and the rest; zero is no such digit. -/
def takeIncrement : List Char → Option (Nat × List Char)
  | [] => some (0, [])
  | c :: rest =>
    if c = '0' then none
    else if c.isDigit then some (c.toNat - '0'.toNat, rest)
    else some (0, c :: rest)

/-- The text behind the blanks and the comment that end a line, and behind its break; none if
anything else is on the line. -/
def finishLine (cs : List Char) : Option (List Char) :=
  let cs := cs.dropWhile isBlank
  let cs := if cs.head? = some '#' then cs.dropWhile (!isBreak ·) else cs
  match cs with
  | [] => some []
  | c :: rest => if isBreak c then some rest else none

/-- Reads the header behind its indicator: the two marks in either order, then the end of the
line. -/
def readBlockHeader (cs : List Char) : Option (BlockHeader × List Char) := do
  let (chomping, cs) := takeChomping cs
  let (increment, cs) ← takeIncrement cs
  let (late, cs) := if chomping.isNone && increment ≠ 0 then takeChomping cs else (none, cs)
  let rest ← finishLine cs
  return (⟨(chomping.or late).getD .clip, increment⟩, rest)

/-! ## The lines -/

/-- Where the reader of a block stands. -/
inductive BlockPhase where
  /-- In the indentation of a line. -/
  | indentation
  /-- In the content of a line. -/
  | content

/-- What the reader of a block has gathered. -/
structure BlockState where
  /-- The indentation of the block, zero as long as it is not known. -/
  indent : Nat
  /-- The deepest indentation seen. -/
  deepest : Nat
  /-- The text so far, the last character in front. -/
  text : List Char
  /-- The break at the end of the last line with content. -/
  lineBreak : Option Char
  /-- The breaks of the empty lines behind it, the last in front. -/
  emptyLines : List Char
  /-- Whether the last line with content began with a blank. -/
  beganBlank : Bool

/-- The text with the breaks that stand in front of a new line. In a folded block a line feed
between two lines that begin with a word becomes a space, or nothing in front of empty lines. -/
def BlockState.joined (st : BlockState) (literal beginsBlank : Bool) : List Char :=
  let folds := !literal && st.lineBreak = some '\n' && !st.beganBlank && !beginsBlank
  let breaks :=
    if folds then (if st.emptyLines.isEmpty then [' '] else []) else st.lineBreak.toList
  st.emptyLines ++ breaks ++ st.text

/-- The text of a block at its end. -/
def BlockState.finish (st : BlockState) (chomping : Chomping) : String :=
  let breaks :=
    match chomping with
    | .strip => []
    | .clip => st.lineBreak.toList
    | .keep => st.emptyLines ++ st.lineBreak.toList
  String.ofList (breaks ++ st.text).reverse

/-- Reads the lines of a block from a column on. `least` is the indentation that a block must at
least have; the indentation of the first line with content is that of the block if the header tells
none. A tab within the indentation makes the block unreadable. -/
def readBlock (literal : Bool) (chomping : Chomping) (least : Nat) (phase : BlockPhase)
    (column : Nat) (st : BlockState) : List Char → Option (String × List Char)
  | [] => some (st.finish chomping, [])
  | c :: rest =>
    match phase with
    | .content =>
      if isBreak c then
        readBlock literal chomping least .indentation 0 { st with lineBreak := some c } rest
      else
        readBlock literal chomping least .content (column + 1) { st with text := c :: st.text } rest
    | .indentation =>
      let isShort := st.indent = 0 || column < st.indent
      if isShort && c = ' ' then
        readBlock literal chomping least .indentation (column + 1) st rest
      else if isShort && c = '\t' then none
      else
        let deepest := max st.deepest column
        if isBreak c then
          readBlock literal chomping least .indentation 0
            { st with deepest, emptyLines := c :: st.emptyLines } rest
        else
          let indent := if st.indent = 0 then max deepest (max least 1) else st.indent
          if column = indent then
            let st :=
              { st with
                indent
                deepest
                text := c :: st.joined literal (isBlank c)
                lineBreak := none
                emptyLines := []
                beganBlank := isBlank c }
            readBlock literal chomping least .content (column + 1) st rest
          else some (st.finish chomping, c :: rest)

end Regroup.Yaml
