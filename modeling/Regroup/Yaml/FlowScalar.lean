import Regroup.Yaml.Character

/-!
# Scalars that run through lines

Plain and quoted scalars may go on over several lines. The blanks around a line break count for
nothing; a single break becomes a space, and of several breaks all but the first are kept.

Each reader works through the characters one by one and keeps the column, because a scalar outside
of brackets ends where the text is no longer indented enough.

## Main definitions

* `Regroup.Yaml.Gap` — blanks and breaks behind a word whose fate is still open.
* `Regroup.Yaml.readPlain` — a scalar without marks.
* `Regroup.Yaml.readSingleQuoted`, `Regroup.Yaml.readDoubleQuoted` — scalars between quotes.
-/

namespace Regroup.Yaml

/-! ## Gaps -/

/-- Blanks and breaks between two words of a scalar. -/
inductive Gap where
  /-- Blanks within a line, the last in front. -/
  | blanks (reversed : List Char)
  /-- A first line break, missing where it was escaped, and further ones, the last in front. -/
  | lines (first : Option Char) (reversed : List Char)

/-- No gap. -/
def Gap.none : Gap := .blanks []

/-- Whether the gap goes over a line break. -/
def Gap.breaksLine : Gap → Bool
  | .blanks _ => false
  | .lines _ _ => true

/-- The gap with one more blank, which counts for nothing behind a line break. -/
def Gap.addBlank (c : Char) : Gap → Gap
  | .blanks reversed => .blanks (c :: reversed)
  | gap => gap

/-- The gap with one more line break, in front of which blanks count for nothing. -/
def Gap.addBreak (c : Char) : Gap → Gap
  | .blanks _ => .lines (some c) []
  | .lines first reversed => .lines first (c :: reversed)

/-- What a gap puts between two words, the last character in front. A line feed on its own becomes
a space and in front of others nothing; other breaks stay. -/
def Gap.joined : Gap → List Char
  | .blanks reversed => reversed
  | .lines (some '\n') [] => [' ']
  | .lines (some '\n') reversed => reversed
  | .lines (some c) reversed => reversed ++ [c]
  | .lines .none reversed => reversed

/-! ## Plain scalars -/

/-- A scalar that has been read: its text, the rest of the input, and whether the blanks behind it
went over a line break. -/
structure FlowScalar where
  /-- The text. -/
  text : String
  /-- The input behind the scalar and the blanks after it. -/
  rest : List Char
  /-- Whether those blanks went over a line break. -/
  brokeLine : Bool

private def finishPlain (gap : Gap) (acc rest : List Char) : Option FlowScalar :=
  some ⟨String.ofList acc.reverse, rest, gap.breaksLine⟩

/-- Reads a scalar without marks, from a column on. It ends at a comment, at a document mark, in
front of a colon that ends a word, inside of brackets at their marks, and outside of them where a
line is indented less than `indent`. A tab in such indentation makes it unreadable, and so does a
colon directly in front of a mark inside of brackets. -/
def readPlain (inFlow : Bool) (indent column : Nat) (gap : Gap) (inWord : Bool) (acc : List Char) :
    List Char → Option FlowScalar
  | [] => finishPlain gap acc []
  | c :: rest =>
    if isBlank c then
      if gap.breaksLine && column < indent && c = '\t' then none
      else readPlain inFlow indent (column + 1) (gap.addBlank c) false acc rest
    else if isBreak c then readPlain inFlow indent 0 (gap.addBreak c) false acc rest
    else if !inWord && !acc.isEmpty && !inFlow && column < indent then
      finishPlain gap acc (c :: rest)
    else if !inWord && (c = '#' || (column = 0 && atDocumentMark (c :: rest))) then
      finishPlain gap acc (c :: rest)
    else if inFlow && c = ':' && rest.head?.any (fun d => isFlowIndicator d || d = '?') then none
    else if (c = ':' && endsWord rest) || (inFlow && isFlowIndicator c) then
      finishPlain gap acc (c :: rest)
    else readPlain inFlow indent (column + 1) Gap.none true (c :: (gap.joined ++ acc)) rest

/-! ## Quoted scalars -/

/-- Reads a scalar behind its opening single quote, up to and with the closing one. A quote inside
is written twice. -/
def readSingleQuoted (column : Nat) (gap : Gap) (acc : List Char) :
    List Char → Option (String × List Char)
  | [] => none
  | '\'' :: '\'' :: rest => readSingleQuoted (column + 2) Gap.none ('\'' :: (gap.joined ++ acc)) rest
  | c :: rest =>
    if isBlank c then readSingleQuoted (column + 1) (gap.addBlank c) acc rest
    else if isBreak c then readSingleQuoted 0 (gap.addBreak c) acc rest
    else if column = 0 && atDocumentMark (c :: rest) then none
    else if c = '\'' then some (String.ofList (gap.joined ++ acc).reverse, rest)
    else readSingleQuoted (column + 1) Gap.none (c :: (gap.joined ++ acc)) rest

/-- The character that a letter behind a backslash stands for. -/
def escaped? : Char → Option Char
  | '0' => some '\x00'
  | 'a' => some '\x07'
  | 'b' => some '\x08'
  | 't' => some '\t'
  | '\t' => some '\t'
  | 'n' => some '\n'
  | 'v' => some '\x0b'
  | 'f' => some '\x0c'
  | 'r' => some '\r'
  | 'e' => some '\x1b'
  | ' ' => some ' '
  | '"' => some '"'
  | '/' => some '/'
  | '\\' => some '\\'
  | 'N' => some '\u0085'
  | '_' => some '\u00a0'
  | 'L' => some '\u2028'
  | 'P' => some '\u2029'
  | _ => none

/-- The number of hexadecimal digits that follow a letter behind a backslash. -/
def escapeDigits? : Char → Option Nat
  | 'x' => some 2
  | 'u' => some 4
  | 'U' => some 8
  | _ => none

/-- The character of a number, unless the number is that of half a surrogate pair or too large. -/
def charOfNumber? (n : Nat) : Option Char :=
  if n.isValidChar then some (Char.ofNat n) else none

/-- Reads a scalar behind its opening double quote, up to and with the closing one. `number` holds
the digits still to come of an escaped character and the value of those before. -/
def readDoubleQuoted (column : Nat) (gap : Gap) (number : Option (Nat × Nat)) (acc : List Char) :
    List Char → Option (String × List Char)
  | [] => none
  | c :: rest =>
    match number with
    | some (left, value) =>
      match hexValue? c with
      | none => none
      | some d =>
        let value := value * 16 + d
        if left = 1 then
          match charOfNumber? value with
          | some e => readDoubleQuoted (column + 1) Gap.none .none (e :: acc) rest
          | none => none
        else readDoubleQuoted (column + 1) Gap.none (some (left - 1, value)) acc rest
    | none =>
      if isBlank c then readDoubleQuoted (column + 1) (gap.addBlank c) .none acc rest
      else if isBreak c then readDoubleQuoted 0 (gap.addBreak c) .none acc rest
      else if column = 0 && atDocumentMark (c :: rest) then none
      else
        let acc := gap.joined ++ acc
        if c = '"' then some (String.ofList acc.reverse, rest)
        else if c = '\\' then
          match rest with
          | [] => none
          | e :: rest =>
            if isBreak e then readDoubleQuoted 0 (.lines .none []) .none acc rest
            else
              match escaped? e, escapeDigits? e with
              | some e, _ => readDoubleQuoted (column + 2) Gap.none .none (e :: acc) rest
              | none, some digits =>
                readDoubleQuoted (column + 2) Gap.none (some (digits, 0)) acc rest
              | none, none => none
        else readDoubleQuoted (column + 1) Gap.none .none (c :: acc) rest

end Regroup.Yaml
