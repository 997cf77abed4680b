/-!
# Tokens of YAML

The smallest pieces of a document that mean something.

## Main definitions

* `Regroup.Yaml.Style` — how a scalar is written.
* `Regroup.Yaml.Token` — the pieces.
-/

namespace Regroup.Yaml

/-- How a scalar is written. -/
inductive Style where
  /-- Without any mark. -/
  | plain
  /-- Between single or double quotes. -/
  | quoted
  /-- As an indented block whose line breaks are kept. -/
  | literal
  /-- As an indented block whose lines are joined. -/
  | folded
  deriving DecidableEq, Repr

/-- A piece of a document. -/
inductive Token where
  /-- The beginning of the text. -/
  | streamStart
  /-- The end of the text. -/
  | streamEnd
  /-- A directive that tells the version of the format. -/
  | version (major minor : Nat)
  /-- A directive that gives a handle for the beginnings of tags. -/
  | tagHandle (handle start : String)
  /-- The mark that opens a document. -/
  | documentStart
  /-- The mark that closes a document. -/
  | documentEnd
  /-- The indentation of a block sequence. -/
  | blockSequenceStart
  /-- The indentation of a block mapping. -/
  | blockMappingStart
  /-- The end of an indentation. -/
  | blockEnd
  /-- An opening bracket. -/
  | flowSequenceStart
  /-- A closing bracket. -/
  | flowSequenceEnd
  /-- An opening brace. -/
  | flowMappingStart
  /-- A closing brace. -/
  | flowMappingEnd
  /-- The hyphen in front of an entry of a block sequence. -/
  | blockEntry
  /-- A comma. -/
  | flowEntry
  /-- What follows is a key. -/
  | key
  /-- What follows is the value of a key. -/
  | value
  /-- A reference to an anchored node. -/
  | alias (name : String)
  /-- A name for the node that follows. -/
  | anchor (name : String)
  /-- A tag of the node that follows, as a handle and the rest. -/
  | tag (handle suffix : String)
  /-- A scalar. -/
  | scalar (style : Style) (text : String)
  deriving DecidableEq, Repr

end Regroup.Yaml
