import XoLang.Yaml.Place
import XoLang.Yaml.Tag

/-!
# Nodes of a YAML document

A document is a graph of nodes: a collection names its parts by their indexes, so that a part can
stand at several places and a collection can hold itself.
-/

namespace XoLang.Yaml

/-- The index of a node. -/
abbrev NodeId := Nat

/-- A node with its tag. -/
inductive Node where
  | scalar (tag : Tag) (text : CodeText)
  | sequence (tag : Tag) (items : List NodeId)
  | mapping (tag : Tag) (pairs : List (NodeId × NodeId))
  deriving Repr

namespace Node

/-- The tag of a node. -/
def tag : Node → Tag
  | .scalar tag _ => tag
  | .sequence tag _ => tag
  | .mapping tag _ => tag

/-- A node with another tag. -/
def withTag (tag : Tag) : Node → Node
  | .scalar _ text => .scalar tag text
  | .sequence _ items => .sequence tag items
  | .mapping _ pairs => .mapping tag pairs

/-- The pairs of a node that is a mapping. -/
def pairs? : Node → Option (List (NodeId × NodeId))
  | .mapping _ pairs => some pairs
  | _ => none

end Node

/-- The nodes of a document. -/
structure Graph where
  nodes : Array Node
  deriving Repr

namespace Graph

/-- A graph without nodes. -/
def empty : Graph := ⟨#[]⟩

/-- How many nodes there are. -/
def size (g : Graph) : Nat := g.nodes.size

/-- The node with an index. -/
def node? (g : Graph) (id : NodeId) : Option Node := g.nodes[id]?

/-- Add a node; it gets the next index. -/
def add (g : Graph) (node : Node) : NodeId × Graph := (g.size, ⟨g.nodes.push node⟩)

/-- Replace the node with an index. -/
def set (g : Graph) (id : NodeId) (node : Node) : Graph := ⟨g.nodes.setIfInBounds id node⟩

/-- Whether the node with an index has a tag. -/
def hasTag (g : Graph) (tag : Tag) (id : NodeId) : Bool :=
  (g.node? id).any fun node => node.tag = tag

/-- The pairs of the node with an index; other nodes than mappings have none. -/
def pairs (g : Graph) (id : NodeId) : List (NodeId × NodeId) :=
  ((g.node? id).bind Node.pairs?).getD []

/-- A mapping with other pairs. -/
def setPairs (g : Graph) (id : NodeId) (pairs : List (NodeId × NodeId)) : Graph :=
  match g.node? id with
  | some (.mapping tag _) => g.set id (.mapping tag pairs)
  | _ => g

/-- The text of a node where a scalar is expected. A mapping has the text of its value key. After
more steps than there are nodes a mapping has been met twice. -/
def textAt (g : Graph) : Nat → NodeId → Attempt CodeText
  | 0, _ => .error (.value .endlessScalar)
  | fuel + 1, id =>
    match g.node? id with
    | some (.scalar _ text) => .ok text
    | some (.mapping _ pairs) =>
      match pairs.find? fun pair => g.hasTag .value pair.1 with
      | some pair => g.textAt fuel pair.2
      | none => .error .malformed
    | _ => .error .malformed

/-- The text of a node where a scalar is expected. -/
def text (g : Graph) (id : NodeId) : Attempt CodeText := g.textAt (g.size + 1) id

end Graph

end XoLang.Yaml
