import HostPruning.Yaml.Token.Scanner

/-!
# YAML nodes

A document is a tree of scalars, sequences and mappings; an alias stands for a node that
carries an anchor. Anchors and aliases go by number. An anchor gets the number of distinct
names seen before it, so a name that is given again takes a new number, and the last node
that has a number counts.
-/

namespace HostPruning.Yaml

/-- What a node carries besides its content: a resolved tag and the number of an anchor. -/
structure Properties where
  tag : Option String := none
  anchor : Option Nat := none

/-- A node. -/
inductive Node where
  | scalar (properties : Properties) (style : Style) (text : String)
  | sequence (properties : Properties) (items : List Node)
  | mapping (properties : Properties) (pairs : List (Node × Node))
  | reference (number : Nat)

namespace Node

instance : Inhabited Node := ⟨reference 0⟩

/-- The node of a place where nothing is written. -/
def empty : Node := scalar {} .plain ""

/-- The number of an anchor together with its node. -/
def ownAnchor (properties : Properties) (node : Node) : List (Nat × Node) :=
  match properties.anchor with
  | none => []
  | some number => [(number, node)]

mutual

/-- The anchors of a node and of the nodes inside it, in the order in which they are written. -/
def anchors : Node → List (Nat × Node)
  | scalar properties style text => ownAnchor properties (scalar properties style text)
  | sequence properties items =>
      ownAnchor properties (sequence properties items) ++ anchorsOfItems items
  | mapping properties pairs =>
      ownAnchor properties (mapping properties pairs) ++ anchorsOfPairs pairs
  | reference _ => []

/-- The anchors inside the items of a sequence. -/
def anchorsOfItems : List Node → List (Nat × Node)
  | [] => []
  | item :: rest => item.anchors ++ anchorsOfItems rest

/-- The anchors inside the pairs of a mapping. -/
def anchorsOfPairs : List (Node × Node) → List (Nat × Node)
  | [] => []
  | (key, value) :: rest => key.anchors ++ value.anchors ++ anchorsOfPairs rest

end

mutual

/-- The size of a node: one for a scalar or an alias, and two more than its parts for a
collection. -/
def size : Node → Nat
  | scalar _ _ _ => 1
  | sequence _ items => sizeOfItems items + 2
  | mapping _ pairs => sizeOfPairs pairs + 2
  | reference _ => 1

/-- The size of the items of a sequence. -/
def sizeOfItems : List Node → Nat
  | [] => 0
  | item :: rest => item.size + sizeOfItems rest

/-- The size of the pairs of a mapping. -/
def sizeOfPairs : List (Node × Node) → Nat
  | [] => 0
  | (key, value) :: rest => key.size + value.size + sizeOfPairs rest

end

end Node

/-- A document: its root, if it has one. -/
structure Document where
  root : Option Node

/-- The node an alias stands for: the last one that carries the number. -/
def Document.target? (document : Document) (number : Nat) : Option Node :=
  match document.root with
  | none => none
  | some root => root.anchors.reverse.lookup number

/-- The size of a document. -/
def Document.size (document : Document) : Nat :=
  match document.root with
  | none => 1
  | some root => root.size

end HostPruning.Yaml
