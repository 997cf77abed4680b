import Regroup.Yaml.Lexer

/-!
# From tokens to events

A document is a tree of nodes, told as a sequence of events: scalars, references, and the beginnings
and ends of sequences and mappings. The grammar is worked off by a stack of goals. Each event
settles the goal on top and may put others in its place; a missing node counts as an empty scalar.

## Main definitions

* `Regroup.Yaml.Scalar`, `Regroup.Yaml.Event` — what a document is told in.
* `Regroup.Yaml.Goal` — what the grammar expects.
* `Regroup.Yaml.Reader.next?` — the next event.
* `Regroup.Yaml.events` — the events of a text, up to its end or to an error.
-/

namespace Regroup.Yaml

/-- A scalar with its tag. -/
structure Scalar where
  /-- How it is written. -/
  style : Style
  /-- The tag, in full. -/
  tag : Option String
  /-- The text. -/
  text : String
  deriving DecidableEq, Repr

/-- A step through a document. -/
inductive Event where
  /-- A document begins. -/
  | documentStart
  /-- A document ends. -/
  | documentEnd
  /-- The text ends. -/
  | streamEnd
  /-- A node that was given a name before. -/
  | alias (name : String)
  /-- A scalar, perhaps with a name. -/
  | scalar (anchor : Option String) (s : Scalar)
  /-- A sequence begins, perhaps with a name. -/
  | sequenceStart (anchor : Option String)
  /-- A sequence ends. -/
  | sequenceEnd
  /-- A mapping begins, perhaps with a name. -/
  | mappingStart (anchor : Option String)
  /-- A mapping ends. -/
  | mappingEnd
  deriving DecidableEq, Repr

/-- What the grammar expects next. -/
inductive Goal where
  /-- The first document, whose mark may be missing, or the end. -/
  | firstDocument
  /-- A further document, or the end. -/
  | furtherDocument
  /-- The content of a document behind its mark. -/
  | content
  /-- The end of a document. -/
  | documentEnd
  /-- A node in a block. -/
  | blockNode
  /-- Entries of a block sequence. -/
  | blockEntries
  /-- Entries of a block sequence that is not indented. -/
  | flatEntries
  /-- A key of a block mapping. -/
  | blockKey
  /-- A value of a block mapping. -/
  | blockValue
  /-- The first entry of a bracketed sequence, or a further one. -/
  | flowEntry (isFirst : Bool)
  /-- The key of a pair within a bracketed sequence. -/
  | pairKey
  /-- The value of such a pair. -/
  | pairValue
  /-- The end of such a pair. -/
  | pairEnd
  /-- The first key of a mapping in braces, or a further one. -/
  | flowKey (isFirst : Bool)
  /-- A value of a mapping in braces. -/
  | flowValue
  /-- The value of a key without a colon in a mapping in braces. -/
  | missingValue
  deriving DecidableEq

/-- The state of the grammar. -/
structure Reader where
  /-- The tokens still to be read. -/
  tokens : List Token
  /-- What is expected, the next in front. -/
  goals : List Goal
  /-- The handles for the beginnings of tags. -/
  handles : List (String × String)

/-- The handles that every document has. -/
def standardHandles : List (String × String) := [("!", "!"), ("!!", "tag:yaml.org,2002:")]

/-- The empty scalar in the place of a missing node. -/
def emptyScalar : Event := .scalar none ⟨.plain, none, ""⟩

namespace Reader

variable (r : Reader)

/-- The type of steps: an event and the state behind it, or none where the tokens end too early or
do not fit. -/
abbrev Step := Option (Event × Reader)

/-- The reader with other tokens left and other goals. -/
def go (tokens : List Token) (goals : List Goal) : Reader := { r with tokens, goals }

/-! ## Nodes -/

/-- Takes the anchor and the tag in front of a node, in either order. -/
def takeProperties : List Token → Option String × Option (String × String) × List Token
  | .anchor name :: .tag handle suffix :: rest => (some name, some (handle, suffix), rest)
  | .tag handle suffix :: .anchor name :: rest => (some name, some (handle, suffix), rest)
  | .anchor name :: rest => (some name, none, rest)
  | .tag handle suffix :: rest => (none, some (handle, suffix), rest)
  | rest => (none, none, rest)

/-- The full tag: a handle stands for its beginning, which must be known. -/
def fullTag? : Option (String × String) → Option (Option String)
  | none => some none
  | some ("", suffix) => some (some suffix)
  | some (handle, suffix) =>
    (r.handles.find? (·.1 = handle)).map fun found => some (found.2 ++ suffix)

/-- A node, behind which the given goals are left. Block collections may begin only where `inBlock`
is set, and unindented entries only where `flat` is. -/
def node (inBlock flat : Bool) (goals : List Goal) (tokens : List Token) : Step :=
  match tokens with
  | .alias name :: rest => some (.alias name, r.go rest goals)
  | _ => do
    let (anchor, shortTag, rest) := takeProperties tokens
    let tag ← r.fullTag? shortTag
    match rest with
    | [] => none
    | .blockEntry :: _ =>
      if flat then return (.sequenceStart anchor, r.go rest (.flatEntries :: goals))
      else if anchor.isSome || tag.isSome then
        return (.scalar anchor ⟨.plain, tag, ""⟩, r.go rest goals)
      else none
    | .scalar style text :: rest =>
      return (.scalar anchor ⟨style, tag.filter (· ≠ "!"), text⟩, r.go rest goals)
    | .flowSequenceStart :: rest =>
      return (.sequenceStart anchor, r.go rest (.flowEntry true :: goals))
    | .flowMappingStart :: rest =>
      return (.mappingStart anchor, r.go rest (.flowKey true :: goals))
    | t :: behind =>
      if inBlock && t = .blockSequenceStart then
        return (.sequenceStart anchor, r.go behind (.blockEntries :: goals))
      else if inBlock && t = .blockMappingStart then
        return (.mappingStart anchor, r.go behind (.blockKey :: goals))
      else if anchor.isSome || tag.isSome then
        return (.scalar anchor ⟨.plain, tag, ""⟩, r.go rest goals)
      else none

/-- A node, or an empty scalar in front of a token that shows that the node is missing. -/
def nodeUnless (missing : Token → Bool) (inBlock flat : Bool) (goals : List Goal) :
    List Token → Step
  | [] => none
  | t :: rest =>
    if missing t then some (emptyScalar, r.go (t :: rest) goals)
    else r.node inBlock flat goals (t :: rest)

/-! ## Documents -/

/-- Takes the directives in front of a document. A version must be one of 1.1 and 1.2 and be told
once, a handle must be given once. -/
def takeDirectives (version : Bool) (handles : List (String × String)) :
    List Token → Option (List (String × String) × List Token)
  | .version major minor :: rest =>
    if !version && major = 1 && (minor = 1 || minor = 2) then takeDirectives true handles rest
    else none
  | .tagHandle handle start :: rest =>
    if handles.any (·.1 = handle) then none
    else takeDirectives version (handles ++ [(handle, start)]) rest
  | rest => some (handles, rest)

/-- Whether the token is a directive. -/
def isDirective : Token → Bool
  | .version _ _ | .tagHandle _ _ => true
  | _ => false

/-- A document, or the end of the text. -/
def document (mayBeBare : Bool) (goals : List Goal) (tokens : List Token) : Step :=
  match tokens with
  | [] => none
  | .streamEnd :: rest => some (.streamEnd, r.go rest [])
  | t :: _ =>
    if mayBeBare && !isDirective t && t ≠ .documentStart then
      some (.documentStart,
        { r with
          tokens
          goals := .blockNode :: .documentEnd :: goals
          handles := standardHandles })
    else do
      let (given, rest) ← takeDirectives false [] tokens
      match rest with
      | .documentStart :: rest =>
        return (.documentStart,
          { r with
            tokens := rest
            goals := .content :: .documentEnd :: goals
            handles := given ++ standardHandles })
      | _ => none

/-! ## The grammar -/

/-- Whether the token ends the content of a document. -/
def endsDocument : Token → Bool
  | .version _ _ | .tagHandle _ _ | .documentStart | .documentEnd | .streamEnd => true
  | _ => false

/-- The next event, if the tokens allow one. -/
def next? : Step :=
  match r.goals with
  | [] => none
  | goal :: goals =>
    match goal, r.tokens with
    | .firstDocument, tokens => r.document true goals tokens
    | .furtherDocument, tokens =>
      r.document false goals (tokens.dropWhile (· = .documentEnd))
    | .content, tokens => r.nodeUnless endsDocument true false goals tokens
    | .documentEnd, [] => none
    | .documentEnd, .documentEnd :: rest =>
      some (.documentEnd, r.go rest (.furtherDocument :: goals))
    | .documentEnd, tokens => some (.documentEnd, r.go tokens (.furtherDocument :: goals))
    | .blockNode, tokens => r.node true false goals tokens
    | .blockEntries, .blockEntry :: rest =>
      r.nodeUnless (fun t => t = .blockEntry || t = .blockEnd) true false (goal :: goals) rest
    | .blockEntries, .blockEnd :: rest => some (.sequenceEnd, r.go rest goals)
    | .blockEntries, _ => none
    | .flatEntries, [] => none
    | .flatEntries, .blockEntry :: rest =>
      r.nodeUnless
        (fun t => t = .blockEntry || t = .key || t = .value || t = .blockEnd)
        true false (goal :: goals) rest
    | .flatEntries, tokens => some (.sequenceEnd, r.go tokens goals)
    | .blockKey, .key :: rest =>
      r.nodeUnless (fun t => t = .key || t = .value || t = .blockEnd) true true
        (.blockValue :: goals) rest
    | .blockKey, .blockEnd :: rest => some (.mappingEnd, r.go rest goals)
    | .blockKey, _ => none
    | .blockValue, [] => none
    | .blockValue, .value :: rest =>
      r.nodeUnless (fun t => t = .key || t = .value || t = .blockEnd) true true
        (.blockKey :: goals) rest
    | .blockValue, tokens => some (emptyScalar, r.go tokens (.blockKey :: goals))
    | .flowEntry _, .flowSequenceEnd :: rest => some (.sequenceEnd, r.go rest goals)
    | .flowEntry isFirst, tokens => do
      let tokens ←
        match isFirst, tokens with
        | true, tokens => some tokens
        | false, .flowEntry :: rest => some rest
        | false, _ => none
      match tokens with
      | [] => none
      | .key :: rest =>
        return (.mappingStart none, r.go rest (.pairKey :: .flowEntry false :: goals))
      | .flowSequenceEnd :: rest => return (.sequenceEnd, r.go rest goals)
      | _ => r.node false false (.flowEntry false :: goals) tokens
    | .pairKey, [] => none
    | .pairKey, t :: rest =>
      if t = .value || t = .flowEntry || t = .flowSequenceEnd then
        some (emptyScalar, r.go rest (.pairValue :: goals))
      else r.node false false (.pairValue :: goals) (t :: rest)
    | .pairValue, [] => none
    | .pairValue, .value :: rest =>
      r.nodeUnless (fun t => t = .flowEntry || t = .flowSequenceEnd) false false
        (.pairEnd :: goals) rest
    | .pairValue, tokens => some (emptyScalar, r.go tokens (.pairEnd :: goals))
    | .pairEnd, [] => none
    | .pairEnd, tokens => some (.mappingEnd, r.go tokens goals)
    | .flowKey _, .flowMappingEnd :: rest => some (.mappingEnd, r.go rest goals)
    | .flowKey isFirst, tokens => do
      let tokens ←
        match isFirst, tokens with
        | true, tokens => some tokens
        | false, .flowEntry :: rest => some rest
        | false, _ => none
      match tokens with
      | [] => none
      | .key :: rest =>
        r.nodeUnless (fun t => t = .value || t = .flowEntry || t = .flowMappingEnd) false false
          (.flowValue :: .flowKey false :: goals) rest
      | .flowMappingEnd :: rest => return (.mappingEnd, r.go rest goals)
      | _ => r.node false false (.missingValue :: .flowKey false :: goals) tokens
    | .flowValue, [] => none
    | .flowValue, .value :: rest =>
      r.nodeUnless (fun t => t = .flowEntry || t = .flowMappingEnd) false false goals rest
    | .flowValue, tokens => some (emptyScalar, r.go tokens goals)
    | .missingValue, [] => none
    | .missingValue, tokens => some (emptyScalar, r.go tokens goals)

end Reader

/-! ## All events -/

/-- The events of a text, and whether they are all there are. -/
structure Events where
  /-- The events in order. -/
  events : List Event
  /-- Whether they are all there are; if not, the text cannot be read any further. -/
  complete : Bool

/-- Reads events until there is no goal left or an error comes, at most `rounds` times. -/
def readEvents : Nat → Reader → Events
  | 0, _ => ⟨[], false⟩
  | rounds + 1, r =>
    if r.goals.isEmpty then ⟨[], true⟩
    else
      match r.next? with
      | none => ⟨[], false⟩
      | some (event, r) =>
        let later := readEvents rounds r
        { later with events := event :: later.events }

/-- The events of a text. No token gives rise to more than a few events. -/
def events (text : String) : Events :=
  match tokens text with
  | ⟨.streamStart :: rest, _⟩ =>
    readEvents (8 * rest.length + 16) ⟨rest, [.firstDocument], standardHandles⟩
  | _ => ⟨[], false⟩

end Regroup.Yaml
