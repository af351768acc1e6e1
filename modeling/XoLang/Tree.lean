import XoLang.Json.Value
import XoLang.Location

/-!
# Syntax trees

The nodes of a program: literals and comments hold a text, assignments and calls a name and a list
of nodes. Line ends are nodes, so that rendering keeps the layout. A node may have a place, which
plays no part in comparing trees.
-/

namespace XoLang

/-- The kinds of nodes that hold a text and nothing else. -/
inductive LeafKind where
  | number
  | string
  | boolean
  | comment
  | commentBlock
  deriving DecidableEq, Repr

/-- The label of a kind in dumps. -/
def LeafKind.label : LeafKind → String
  | .number => "LiteralNumber"
  | .string => "LiteralString"
  | .boolean => "LiteralBoolean"
  | .comment => "Comment"
  | .commentBlock => "CommentBlock"

/-- A syntax tree. -/
inductive Tree where
  | leaf (kind : LeafKind) (text : String) (location : Option Location)
  | newline (location : Option Location)
  | assignment (name : String) (body : List Tree) (location : Option Location)
  | call (name : String) (params : List Tree) (location : Option Location)
  | program (body : List Tree) (location : Option Location)
  /-- A node without content. -/
  | bare (location : Option Location)
  /-- A node of a kind that is not part of the language. -/
  | foreign (kind : String) (location : Option Location)
  deriving Repr, Inhabited

namespace Tree

/-- The label of the kind of a node in dumps. -/
def label : Tree → String
  | .leaf kind _ _ => kind.label
  | .newline _ => "NewLine"
  | .assignment _ _ _ => "VariableAssignment"
  | .call _ _ _ => "FunctionCall"
  | .program _ _ => "Program"
  | .bare _ => "Node"
  | .foreign kind _ => kind

/-- The place of a node. -/
def location : Tree → Option Location
  | .leaf _ _ location => location
  | .newline location => location
  | .assignment _ _ location => location
  | .call _ _ location => location
  | .program _ location => location
  | .bare location => location
  | .foreign _ location => location

/-- The text or the name of a node, with the name of the field. -/
def caption? : Tree → Option (String × String)
  | .leaf _ text _ => some ("text", text)
  | .assignment name _ _ => some ("name", name)
  | .call name _ _ => some ("name", name)
  | _ => none

mutual

/-- Whether two trees are equal up to places. Nothing is known of foreign nodes, so they equal
no other. -/
def alike : Tree → Tree → Bool
  | .leaf kind text _, .leaf kind' text' _ => kind = kind' && text = text'
  | .newline _, .newline _ => true
  | .assignment name body _, .assignment name' body' _ => name = name' && allAlike body body'
  | .call name params _, .call name' params' _ => name = name' && allAlike params params'
  | .program body _, .program body' _ => allAlike body body'
  | .bare _, .bare _ => true
  | _, _ => false
termination_by structural tree => tree

/-- Whether two lists of trees are equal up to places. -/
def allAlike : List Tree → List Tree → Bool
  | [], [] => true
  | tree :: trees, tree' :: trees' => alike tree tree' && allAlike trees trees'
  | _, _ => false
termination_by structural trees => trees

end

/-- The line and the column of a place as JSON fields; the file is left out. -/
def locationFields : Option Location → List (String × Json)
  | some l => [("location", .object [("line", .int l.line), ("column", .int l.column)])]
  | none => []

mutual

/-- A tree for tools: the kind, the text or name, the nodes below, and the place. -/
def toJson : Tree → Json
  | .leaf kind text location =>
    .object ([("kind", .text kind.label), ("text", .text text)] ++ locationFields location)
  | .newline location => .object ([("kind", .text "NewLine")] ++ locationFields location)
  | .assignment name body location =>
    .object ([("kind", .text "VariableAssignment"), ("name", .text name),
      ("body", .list (listJson body))] ++ locationFields location)
  | .call name params location =>
    .object ([("kind", .text "FunctionCall"), ("name", .text name),
      ("params", .list (listJson params))] ++ locationFields location)
  | .program body location =>
    .object ([("kind", .text "Program"), ("body", .list (listJson body))] ++
      locationFields location)
  | .bare location => .object ([("kind", .text "Node")] ++ locationFields location)
  | .foreign kind location => .object ([("kind", .text kind)] ++ locationFields location)
termination_by structural tree => tree

/-- Trees for tools. -/
def listJson : List Tree → List Json
  | [] => []
  | tree :: trees => toJson tree :: listJson trees
termination_by structural trees => trees

end

end Tree

end XoLang
