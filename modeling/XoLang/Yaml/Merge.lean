import XoLang.Yaml.Graph

/-!
# Merge keys

A merge key takes over the pairs of another mapping, or of the mappings of a sequence, the last one
first. They come before the mapping's own pairs. Taking over changes the mapping in the graph, and
the other mappings first, so that each merge key is used up once; also a mapping that is merged into
itself comes to an end.
-/

namespace XoLang.Yaml.Graph

/-- How many merge keys there are. -/
def mergeCount (g : Graph) : Nat :=
  g.nodes.foldl (fun n node =>
    n + ((node.pairs?.getD []).countP fun pair => g.hasTag .merge pair.1)) 0

/-- The value of the first merge key among pairs, and the other pairs. -/
def takeMerge? (g : Graph) : List (NodeId × NodeId) → Option (NodeId × List (NodeId × NodeId))
  | [] => none
  | pair :: rest =>
    if g.hasTag .merge pair.1 then some (pair.2, rest)
    else (g.takeMerge? rest).map fun found => (found.1, pair :: found.2)

/-- A key that is an equals sign is a text. -/
def settleKey (g : Graph) (key : NodeId) : Graph :=
  match g.node? key with
  | some node => if node.tag = .value then g.set key (node.withTag .text) else g
  | none => g

/-- Use up the merge keys of a mapping; `merged` holds the pairs that have been taken over. Every
round uses up a merge key, so their count bounds the rounds. -/
def mergeInto : Nat → NodeId → List (NodeId × NodeId) → Graph → Attempt Graph
  | 0, _, _, g => .ok g
  | fuel + 1, id, merged, g =>
    match g.takeMerge? (g.pairs id) with
    | none =>
      let own := g.pairs id
      .ok ((own.foldl (fun g pair => g.settleKey pair.1) g).setPairs id (merged ++ own))
    | some (value, own) => do
      let g := g.setPairs id own
      match g.node? value with
      | some (.mapping _ _) =>
        let g ← mergeInto fuel value [] g
        mergeInto fuel id (merged ++ g.pairs value) g
      | some (.sequence _ items) =>
        let (g, found) ← items.foldlM (fun (g, found) item =>
          match g.node? item with
          | some (.mapping _ _) => do
            let g ← mergeInto fuel item [] g
            return (g, g.pairs item ++ found)
          | _ => throw Fault.malformed) (g, [])
        mergeInto fuel id (merged ++ found) g
      | _ => throw Fault.malformed

end XoLang.Yaml.Graph
