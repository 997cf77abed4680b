import Regroup.Dict
import Regroup.Yaml.Event

/-!
# Documents

The first document of a text as a list of items: scalars, and the beginnings and ends of sequences
and mappings. A reference to a node stands for the beginning of that node.

## Main definitions

* `Regroup.Yaml.Item`, `Regroup.Yaml.Place` — an item, and one with the way it got where it is.
* `Regroup.Yaml.Naming` — which nodes the names stand for.
* `Regroup.Yaml.Document`, `Regroup.Yaml.document` — the first document.

## Design

Names are numbered. A name that is given again gets a new number, the count of different names, and
a later new name shares that number because the count has not grown. A reference holds the number
that its name has where it stands, and means the last node in the whole document that was given the
number.
-/

namespace Regroup.Yaml

/-- A scalar, or the beginning or the end of a collection. -/
inductive Item where
  /-- A scalar. -/
  | scalar (s : Scalar)
  /-- A sequence begins. -/
  | sequenceStart
  /-- A sequence ends. -/
  | sequenceEnd
  /-- A mapping begins. -/
  | mappingStart
  /-- A mapping ends. -/
  | mappingEnd
  deriving DecidableEq, Repr

/-- An item where it stands, or where it is referred to. -/
structure Place where
  /-- The item. -/
  item : Item
  /-- Whether it is only referred to. -/
  isReference : Bool
  deriving DecidableEq, Repr

/-- Which nodes the names of a document stand for. -/
structure Naming where
  /-- The numbers of the names. -/
  numbers : Dict String Nat
  /-- The beginnings of the nodes that the numbers were given to. -/
  nodes : Dict Nat Item

namespace Naming

/-- No names. -/
def empty : Naming := ⟨Dict.empty, Dict.empty⟩

/-- Gives a name to a node, if there is one to give. -/
def give (n : Naming) (name : Option String) (item : Item) : Naming :=
  match name with
  | none => n
  | some name =>
    ⟨n.numbers.insert name n.numbers.size, n.nodes.insert n.numbers.size item⟩

end Naming

/-- What stands in a document: a node of its own, or the number of a named one. -/
inductive Mention where
  /-- A node of its own. -/
  | own (item : Item)
  /-- The node of this number. -/
  | numbered (number : Nat)

/-- The item that is meant, all names of the document being known. -/
def Mention.place? (n : Naming) : Mention → Option Place
  | .own item => some ⟨item, false⟩
  | .numbered number => (n.nodes.get? number).map fun item => ⟨item, true⟩

/-- What has been gathered of a document. -/
structure Gathered where
  /-- What stands in it. -/
  mentions : List Mention
  /-- What its names stand for. -/
  naming : Naming
  /-- The events behind its end, if that was reached. -/
  rest : Option (List Event)

/-- The same with one more mention in front. -/
def Gathered.add (m : Mention) (g : Gathered) : Gathered := { g with mentions := m :: g.mentions }

/-- Gathers a document, up to its end or to a reference to an unknown name. -/
def gather (n : Naming) : List Event → Gathered
  | [] => ⟨[], n, none⟩
  | event :: events =>
    match event with
    | .documentEnd => ⟨[], n, some events⟩
    | .documentStart | .streamEnd => gather n events
    | .alias name =>
      match n.numbers.get? name with
      | some number => (gather n events).add (.numbered number)
      | none => ⟨[], n, none⟩
    | .scalar name s => (gather (n.give name (.scalar s)) events).add (.own (.scalar s))
    | .sequenceStart name =>
      (gather (n.give name .sequenceStart) events).add (.own .sequenceStart)
    | .sequenceEnd => (gather n events).add (.own .sequenceEnd)
    | .mappingStart name => (gather (n.give name .mappingStart) events).add (.own .mappingStart)
    | .mappingEnd => (gather n events).add (.own .mappingEnd)

/-- The first document of a text. -/
structure Document where
  /-- What stands in it, as far as it could be read. -/
  places : List Place
  /-- Whether it could be read to its end. -/
  isWhole : Bool
  /-- Whether the text ends behind it. -/
  isAlone : Bool
  deriving DecidableEq, Repr

/-- The first document of a text; a text without any has an empty one. -/
def document (text : String) : Document :=
  match events text with
  | ⟨[], _⟩ => ⟨[], false, false⟩
  | ⟨.streamEnd :: _, _⟩ => ⟨[], true, true⟩
  | ⟨events, complete⟩ =>
    let g := gather .empty events
    ⟨g.mentions.filterMap (·.place? g.naming), g.rest.isSome, complete && g.rest = some [.streamEnd]⟩

end Regroup.Yaml
