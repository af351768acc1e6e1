import XoLang.Datum.Key
import XoLang.Datum.Members
import XoLang.Text.Base64
import XoLang.Yaml.Merge
import XoLang.Yaml.Number
import XoLang.Yaml.Reader

/-!
# Values of nodes

The values that the nodes of a graph stand for, by their tags. A node has one value, wherever it
stands. The value of a collection is made empty at first; the collections are filled one after the
other in the order in which they were met, so that of several faults the one that is least deep
is found. Whether a collection has the right kind for its tag is checked when it is filled. A tag
without values, and a key that is a collection, are faults.
-/

namespace XoLang.Yaml

/-- The truth value of a word; case does not matter. -/
def truthOf (text : CodeText) : Except ValueFault Bool :=
  let word := text.lower
  if ["yes", "true", "on"].any fun w => word = .ofString w then .ok true
  else if ["no", "false", "off"].any fun w => word = .ofString w then .ok false
  else .error (.notTruth word)

/-- The bytes of a text in base 64, which must be ASCII. -/
def bytesOf (text : CodeText) : Attempt (List UInt8) :=
  if text.all fun point => point.toNat < 0x80 then
    match Text.Base64.decode? (text.map CodePoint.shown) with
    | some bytes => .ok bytes
    | none => .error .malformed
  else .error .malformed

/-- A value or its fault. -/
def ofValue (result : Except ValueFault α) : Attempt α := result.mapError Fault.value

/-- The value of a node whose tag is that of a scalar. A date is never written as a mapping. -/
def scalarValue (g : Graph) (id : NodeId) (node : Node) : Attempt Datum := do
  match node.tag with
  | .text => return .text (← g.text id)
  | .null =>
    let _ ← g.text id
    return .null
  | .bool => return .bool (← ofValue (truthOf (← g.text id)))
  | .int => return .int (← ofValue (integer (← g.text id)))
  | .float => ofValue (float id (← g.text id))
  | .binary => return .bytes (← bytesOf (← g.text id))
  | .timestamp =>
    let text ← g.text id
    if node.pairs?.isSome then throw (.value .timestampMapping)
    ofValue (timestamp text)
  | _ => throw .malformed

/-- Whether the values of a tag are collections. -/
def Tag.isCollection : Tag → Bool
  | .sequence | .mapping | .set | .pairs => true
  | _ => false

/-- What has been made of a graph so far. -/
structure Build where
  graph : Graph
  /-- How many merge keys there were at first. -/
  merges : Nat
  /-- The values of nodes. -/
  values : Array (Option Datum)
  collections : Array Collection
  /-- The nodes of collections in the order in which they were met, with the indexes of their
  values. -/
  met : Array (NodeId × Nat)

/-- Making values. -/
abbrev Builder := StateT Build Attempt

namespace Builder

/-- Add a collection. -/
def addCollection (collection : Collection) : Builder Nat := do
  let index := (← get).collections.size
  modify fun b => { b with collections := b.collections.push collection }
  return index

/-- The value of a node without one so far; a collection is still empty. -/
def make (id : NodeId) : Builder Datum := do
  let g := (← get).graph
  match g.node? id with
  | none => throw .malformed
  | some node =>
    if node.tag.isCollection then
      let index ← addCollection (.list [])
      modify fun b => { b with met := b.met.push (id, index) }
      return .collection index
    else scalarValue g id node

/-- The value of a node. -/
def value (id : NodeId) : Builder Datum := do
  match (← get).values[id]? with
  | some (some datum) => return datum
  | _ =>
    let datum ← make id
    modify fun b => { b with values := b.values.setIfInBounds id (some datum) }
    return datum

/-- The entries that pairs of nodes stand for. -/
def entries (pairs : List (NodeId × NodeId)) : Builder (List (Datum × Datum)) :=
  pairs.foldlM (fun done (key, item) => do
    let key ← value key
    if !key.isKey then throw .malformed
    return Datum.setEntry key (← value item) done) []

/-- The entries of a mapping, after its merge keys have been used up. -/
def mappingEntries (id : NodeId) : Builder (List (Datum × Datum)) := do
  let b ← get
  match b.graph.node? id with
  | some (.mapping _ _) =>
    let graph ← Graph.mergeInto (b.merges + 1) id [] b.graph
    modify fun b => { b with graph := graph }
    entries (graph.pairs id)
  | _ => throw .malformed

/-- The pair of values that a mapping with one pair stands for. -/
def pairOf (id : NodeId) : Builder Datum := do
  match (← get).graph.node? id with
  | some (.mapping _ [(key, item)]) =>
    let first ← value key
    let second ← value item
    return .collection (← addCollection (.pair first second))
  | _ => throw .malformed

/-- The items of a sequence. -/
def itemsOf (id : NodeId) : Builder (List NodeId) := do
  match (← get).graph.node? id with
  | some (.sequence _ items) => return items
  | _ => throw .malformed

/-- The collection that a node stands for; `order` is that of the members of sets. -/
def contents (order : List Datum → List Datum) (id : NodeId) : Builder Collection := do
  match ((← get).graph.node? id).map Node.tag with
  | some .sequence => return .list (← (← itemsOf id).mapM value)
  | some .mapping => return .map (← mappingEntries id)
  | some .set => return .set (Datum.setOrder order ((← mappingEntries id).map (·.1)))
  | some .pairs => return .list (← (← itemsOf id).mapM pairOf)
  | _ => throw .malformed

/-- Fill the collections from a position on. Each node is met once, so the count of nodes bounds the
rounds. -/
def fillFrom (order : List Datum → List Datum) : Nat → Nat → Builder Unit
  | 0, _ => return
  | fuel + 1, position => do
    match (← get).met[position]? with
    | none => return
    | some (id, index) =>
      let collection ← contents order id
      modify fun b => { b with collections := b.collections.setIfInBounds index collection }
      fillFrom order fuel (position + 1)

/-- The value of a node with everything that it holds. -/
def whole (order : List Datum → List Datum) (root : NodeId) : Builder Datum := do
  let datum ← value root
  fillFrom order ((← get).graph.size + 1) 0
  return datum

end Builder

/-- The value that a node of a graph stands for. -/
def Graph.document (g : Graph) (order : List Datum → List Datum) (root : NodeId) :
    Attempt Document := do
  let start : Build := ⟨g, g.mergeCount, Array.replicate g.size none, #[], #[]⟩
  let (datum, b) ← (Builder.whole order root).run start
  return ⟨datum, b.collections⟩

/-- The value that a text stands for; an empty text stands for nothing. The order of the members of
a set is given. -/
def read (order : List Datum → List Datum) (text : String) : Attempt Document := do
  match ← graph? text with
  | none => return ⟨.null, #[]⟩
  | some (g, root) => g.document order root

end XoLang.Yaml
