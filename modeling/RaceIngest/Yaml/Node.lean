import RaceIngest.Yaml.Scalar

/-!
# YAML documents

A document is a tree of nodes: scalars, sequences, mappings, and references to other nodes of the
document. A node that others refer to has a number, its anchor; several nodes can have the same
number, and a reference is to the last of them, wherever it stands. So a document can contain
itself, and what a reader makes of it depends on how many references it follows.

Readers follow references in `Following`, with a limited number of them.

## Main definitions

* `Node`, `Document`,
* `Document.target?`, the node that a reference is to,
* `Document.follow`, which replaces a reference by its node.
-/

namespace RaceIngest.Yaml

/-- What a node carries besides its content. -/
structure Properties where
  /-- The number that references to the node use. -/
  anchor : Option Nat := none
  /-- What the node says it is. -/
  tag : Option (List UInt8) := none
  deriving DecidableEq, Repr

/-- A part of a document. -/
inductive Node where
  | scalar (p : Properties) (text : String) (style : ScalarStyle)
  | sequence (p : Properties) (items : List Node)
  | mapping (p : Properties) (entries : List (Node × Node))
  | reference (number : Nat)
  deriving Repr, Inhabited

namespace Node

/-- The scalar in a place that was left empty. -/
def blank (p : Properties) : Node := .scalar p "" .plain

/-- The properties of a node. A reference has none. -/
def properties : Node → Properties
  | .scalar p _ _ | .sequence p _ | .mapping p _ => p
  | .reference _ => {}

mutual

/-- The number of parts of a node: one for a scalar or a reference, and two for a collection,
its beginning and its end, besides those of its contents. -/
def partCount : Node → Nat
  | .scalar _ _ _ | .reference _ => 1
  | .sequence _ items => itemPartCount items + 2
  | .mapping _ entries => entryPartCount entries + 2

/-- The number of parts of the items of a sequence. -/
def itemPartCount : List Node → Nat
  | [] => 0
  | item :: items => partCount item + itemPartCount items

/-- The number of parts of the entries of a mapping. -/
def entryPartCount : List (Node × Node) → Nat
  | [] => 0
  | (key, value) :: entries => partCount key + partCount value + entryPartCount entries

end

mutual

/-- The last node with a number within a node, in the order they are written; `found` if there is
none. -/
def findLast (number : Nat) (found : Option Node) (node : Node) : Option Node :=
  let found := if node.properties.anchor = some number then some node else found
  match node with
  | .scalar _ _ _ | .reference _ => found
  | .sequence _ items => findLastItem number found items
  | .mapping _ entries => findLastEntry number found entries

/-- The last node with a number within the items of a sequence. -/
def findLastItem (number : Nat) (found : Option Node) : List Node → Option Node
  | [] => found
  | item :: items => findLastItem number (findLast number found item) items

/-- The last node with a number within the entries of a mapping. -/
def findLastEntry (number : Nat) (found : Option Node) : List (Node × Node) → Option Node
  | [] => found
  | (key, value) :: entries =>
    findLastEntry number (findLast number (findLast number found key) value) entries

end

end Node

/-- What a stream holds; nothing for an empty stream. -/
structure Document where
  root : Option Node
  deriving Repr, Inhabited

/-- Reading a document with a number of references that may still be followed. -/
abbrev Following := StateT Nat Option

namespace Document

/-- How many references a reader of a document follows at most, for every part of it. -/
def referencesPerPart : Nat := 100

/-- How many references a reader of a document follows at most. -/
def referenceLimit (d : Document) : Nat := referencesPerPart * (d.root.elim 1 Node.partCount)

/-- The node that a reference is to. -/
def target? (d : Document) (number : Nat) : Option Node :=
  d.root.bind (Node.findLast number none)

/-- Replaces a reference by the node it is to. -/
def follow (d : Document) : Node → Following Node
  | .reference number => fun left =>
    match left with
    | 0 => none
    | left + 1 => (d.target? number).map (·, left)
  | node => pure node

/-- What a reader makes of a document, starting with none of its references followed. -/
def run? {α : Type} (d : Document) (read : Following α) : Option α :=
  (read d.referenceLimit).map (·.1)

end Document

end RaceIngest.Yaml
