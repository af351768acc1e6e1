import XoLang.Yaml.Graph
import XoLang.Yaml.Token

/-!
# Reading nodes

The tokens of a text are read into a graph of nodes with their tags resolved; a reference to an
anchor is the node of the anchor. A text holds at most one document. The tokens are looked at one
by one, so the first fault in their order is the one that is found. Every round of a reader takes a
token, so the count of tokens bounds the rounds.
-/

namespace XoLang.Yaml

/-- What is left of the tokens, and what has been read and named so far. -/
structure Reading where
  tokens : Tokens
  graph : Graph
  /-- The anchors with their nodes, the last one first. -/
  anchors : List (String × NodeId)
  /-- The handles of tags with their expansions. -/
  handles : List (String × String)

/-- A reader of tokens. -/
abbrev Reader := StateT Reading Attempt

namespace Reader

/-- The next token. -/
def peek : Reader Token := do
  let tokens := (← get).tokens
  match tokens.list with
  | t :: _ => return t
  | [] => throw tokens.fault

/-- Whether the next token satisfies a condition. -/
def nextIs (condition : Token → Bool) : Reader Bool := do return condition (← peek)

/-- Take the next token. -/
def advance : Reader Unit :=
  modify fun r => { r with tokens := { r.tokens with list := r.tokens.list.tail } }

/-- Take the next token if it is the given one. -/
def accept (t : Token) : Reader Bool := do
  if ← nextIs (· = t) then
    advance
    return true
  else return false

/-- Take the next token, which must be the given one. -/
def require (t : Token) : Reader Unit := do
  if !(← accept t) then throw .malformed

/-- The anchor that follows, if there is one. -/
def anchor? : Reader (Option String) := do
  match ← peek with
  | .anchor name =>
    advance
    return some name
  | _ => return none

/-- The tag that follows, if there is one. -/
def tag? : Reader (Option TagText) := do
  match ← peek with
  | .tag text =>
    advance
    return some text
  | _ => return none

/-- An anchor and a tag in either order. -/
def properties : Reader (Option String × Option TagText) := do
  match ← anchor? with
  | some name => return (some name, ← tag?)
  | none =>
    match ← tag? with
    | some text => return (← anchor?, some text)
    | none => return (none, none)

/-- The full name of a tag. -/
def expand (text : TagText) : Reader String := do
  match text.handle with
  | none => return text.suffix
  | some handle =>
    match (← get).handles.lookup handle with
    | some expansion => return expansion ++ text.suffix
    | none => throw .malformed

/-- The node that a reference stands for. -/
def referenced (name : String) : Reader NodeId := do
  match (← get).anchors.lookup name with
  | some id => return id
  | none => throw .malformed

/-- Check that an anchor is not in use; a name can be used once. -/
def checkAnchor : Option String → Reader Unit
  | none => return
  | some name => do
    if ((← get).anchors.lookup name).isSome then throw .malformed

/-- Add a node, and note it for its anchor. -/
def addNode (anchor : Option String) (node : Node) : Reader NodeId := do
  let (id, graph) := (← get).graph.add node
  modify fun r => { r with
    graph := graph
    anchors := match anchor with
      | some name => (name, id) :: r.anchors
      | none => r.anchors }
  return id

/-- Replace a node. -/
def setNode (id : NodeId) (node : Node) : Reader NodeId := do
  modify fun r => { r with graph := r.graph.set id node }
  return id

/-- A node without content. -/
def emptyNode : Reader NodeId := addNode none (.scalar .null [])

/-- A sequence; its anchor can be used while its items are read. -/
def sequenceNode (anchor name : Option String) (items : Reader (List NodeId)) : Reader NodeId := do
  let tag := Tag.ofCollection name .sequence
  let id ← addNode anchor (.sequence tag [])
  setNode id (.sequence tag (← items))

/-- A mapping; its anchor can be used while its pairs are read. -/
def mappingNode (anchor name : Option String) (pairs : Reader (List (NodeId × NodeId))) :
    Reader NodeId := do
  let tag := Tag.ofCollection name .mapping
  let id ← addNode anchor (.mapping tag [])
  setNode id (.mapping tag (← pairs))

/-- Whether a token ends an entry of a block without indentation. -/
def endsEntry : Token → Bool
  | .blockEntry | .key | .value | .blockEnd => true
  | _ => false

/-- Whether a token ends a key or value of a block mapping. -/
def endsBlockPart : Token → Bool
  | .key | .value | .blockEnd => true
  | _ => false

/-- Whether a token ends a key in brackets that `closing` closes. -/
def endsFlowKey (closing : Token) (t : Token) : Bool := t = .value || t = .flowEntry || t = closing

/-- Whether a token ends a value in brackets that `closing` closes. -/
def endsFlowValue (closing : Token) (t : Token) : Bool := t = .flowEntry || t = closing

/-- Whether a token starts the content of a node. -/
def startsNode (block indentless : Bool) : Token → Bool
  | .scalar _ _ | .flowSequenceStart | .flowMappingStart => true
  | .blockEntry => indentless
  | .blockSequenceStart | .blockMappingStart => block
  | _ => false

mutual

/-- A node. Blocks are allowed if `block` says so, and a sequence that is not indented if
`indentless` does. -/
def node : Nat → Bool → Bool → Reader NodeId
  | 0, _, _ => throw .malformed
  | fuel + 1, block, indentless => do
    match ← peek with
    | .reference name =>
      advance
      referenced name
    | _ =>
      let (anchor, written) ← properties
      let name ← written.mapM expand
      let t ← peek
      let empty := !startsNode block indentless t
      if empty && anchor.isNone && name.isNone then throw .malformed
      checkAnchor anchor
      match t with
      | .scalar text plain =>
        advance
        addNode anchor (.scalar (Tag.ofScalar name plain text) text)
      | .flowSequenceStart =>
        advance
        sequenceNode anchor name (flowItems fuel true)
      | .flowMappingStart =>
        advance
        mappingNode anchor name (flowEntries fuel true)
      | _ =>
        if empty then addNode anchor (.scalar (Tag.ofScalar name true []) [])
        else if t = .blockEntry then sequenceNode anchor name (blockItems fuel false)
        else if t = .blockSequenceStart then
          advance
          sequenceNode anchor name (blockItems fuel true)
        else
          advance
          mappingNode anchor name (blockEntries fuel)

/-- The items of a block sequence, with its end if it is indented. -/
def blockItems : Nat → Bool → Reader (List NodeId)
  | 0, _ => throw .malformed
  | fuel + 1, indented => do
    if ← accept .blockEntry then
      let empty ← nextIs fun t => if indented then t = .blockEntry || t = .blockEnd else endsEntry t
      let item ← if empty then emptyNode else node fuel true false
      return item :: (← blockItems fuel indented)
    else
      if indented then require .blockEnd
      return []

/-- The entries of a block mapping, with its end. -/
def blockEntries : Nat → Reader (List (NodeId × NodeId))
  | 0 => throw .malformed
  | fuel + 1 => do
    if ← accept .key then
      let key ← if ← nextIs endsBlockPart then emptyNode else node fuel true true
      let value ← blockValue fuel
      return (key, value) :: (← blockEntries fuel)
    else
      require .blockEnd
      return []

/-- The value of an entry of a block mapping. -/
def blockValue : Nat → Reader NodeId
  | 0 => throw .malformed
  | fuel + 1 => do
    if ← accept .value then
      if ← nextIs endsBlockPart then emptyNode else node fuel true true
    else emptyNode

/-- The items of a sequence in brackets, with its end. -/
def flowItems : Nat → Bool → Reader (List NodeId)
  | 0, _ => throw .malformed
  | fuel + 1, first => do
    if ← accept .flowSequenceEnd then return []
    if !first then require .flowEntry
    if ← accept .key then
      let item ← mappingNode none none (do return [← flowPair fuel .flowSequenceEnd])
      return item :: (← flowItems fuel false)
    else if ← accept .flowSequenceEnd then return []
    else
      let item ← node fuel false false
      return item :: (← flowItems fuel false)

/-- A key and its value in brackets that `closing` closes, after the key token. -/
def flowPair : Nat → Token → Reader (NodeId × NodeId)
  | 0, _ => throw .malformed
  | fuel + 1, closing => do
    let key ← if ← nextIs (endsFlowKey closing) then emptyNode else node fuel false false
    if ← accept .value then
      let value ← if ← nextIs (endsFlowValue closing) then emptyNode else node fuel false false
      return (key, value)
    else return (key, ← emptyNode)

/-- The entries of a mapping in brackets, with its end. -/
def flowEntries : Nat → Bool → Reader (List (NodeId × NodeId))
  | 0, _ => throw .malformed
  | fuel + 1, first => do
    if ← accept .flowMappingEnd then return []
    if !first then require .flowEntry
    if ← accept .key then
      let entry ← flowPair fuel .flowMappingEnd
      return entry :: (← flowEntries fuel false)
    else if ← accept .flowMappingEnd then return []
    else
      let key ← node fuel false false
      return (key, ← emptyNode) :: (← flowEntries fuel false)

end

/-- The handles that are always there. -/
def defaultHandles : List (String × String) := [("!", "!"), ("!!", "tag:yaml.org,2002:")]

/-- The directives before a document; the version must be 1 and given once, a handle once. -/
def directives : Nat → Bool → Reader Unit
  | 0, _ => return
  | fuel + 1, versioned => do
    match ← peek with
    | .directive (.version major) =>
      if versioned || major ≠ 1 then throw .malformed
      advance
      directives fuel true
    | .directive (.tag handle expansion) =>
      if ((← get).handles.lookup handle).isSome then throw .malformed
      advance
      modify fun r => { r with handles := (handle, expansion) :: r.handles }
      directives fuel versioned
    | .directive .other =>
      advance
      directives fuel versioned
    | _ => return

/-- Whether a token starts a document that is marked as one. -/
def startsDocument : Token → Bool
  | .directive _ | .documentStart => true
  | _ => false

/-- Whether a token cannot start the content of a document. -/
def endsDocument : Token → Bool
  | .directive _ | .documentStart | .documentEnd | .streamEnd => true
  | _ => false

/-- Take marks of the end of a document. -/
def skipEnds : Nat → Reader Unit
  | 0 => return
  | fuel + 1 => do
    if ← accept .documentEnd then skipEnds fuel else return

/-- The end of a text behind its document. Directives of another document are still looked at. -/
def finish (fuel : Nat) : Reader Unit := do
  skipEnds fuel
  if !(← accept .streamEnd) then
    modify fun r => { r with handles := [] }
    directives fuel false
    throw .malformed

/-- The one document of a text, if there is one. A document that is marked as one may be empty. -/
def document : Reader (Option NodeId) := do
  let fuel := 4 * (← get).tokens.list.length + 4
  if ← nextIs (· = .streamEnd) then return none
  let marked ← nextIs startsDocument
  if marked then
    directives fuel false
    require .documentStart
  modify fun r => { r with handles := r.handles ++ defaultHandles }
  let empty := marked && (← nextIs endsDocument)
  let root ← if empty then emptyNode else node fuel true false
  finish fuel
  return some root

end Reader

/-- The graph of the one document of a text with its root, if there is one. -/
def graph? (text : String) : Attempt (Option (Graph × NodeId)) := do
  let (root, r) ← Reader.document.run ⟨tokens text, .empty, [], []⟩
  return root.map fun root => (r.graph, root)

end XoLang.Yaml
