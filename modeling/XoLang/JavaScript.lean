import XoLang.Json.Writer
import XoLang.Text.Lines
import XoLang.Tree

/-!
# Rendering trees as JavaScript

Every node of the language has a rendering but a boolean literal with another word. A block
comment becomes one line comment a line; what follows it on the same source line moves to the next
line. `unsupported?` finds the first node without a rendering; `emit` renders trees without one.
-/

namespace XoLang.JavaScript

/-- The name of the generated language. -/
def language : String := "javascript"

/-- The words for the boolean literals. -/
def booleanWords : List String := ["true", "false"]

mutual

/-- The first node of a tree that has no rendering. -/
def unsupported? : Tree → Option Tree
  | .leaf kind text location =>
    if kind = .boolean && !booleanWords.contains text then some (.leaf kind text location)
    else none
  | .newline _ => none
  | .assignment _ body _ => firstUnsupported? body
  | .call _ params _ => firstUnsupported? params
  | .program body _ => firstUnsupported? body
  | .bare location => some (.bare location)
  | .foreign kind location => some (.foreign kind location)
termination_by structural tree => tree

/-- The first node below a list of trees that has no rendering. -/
def firstUnsupported? : List Tree → Option Tree
  | [] => none
  | tree :: trees =>
    match unsupported? tree with
    | some found => some found
    | none => firstUnsupported? trees
termination_by structural trees => trees

end

/-- A line comment. -/
def lineComment (text : List Char) : String := "//" ++ String.ofList text

/-- A node that holds a text. -/
def leafText : LeafKind → String → String
  | .number, text => text
  | .string, text => Json.plainText text
  | .boolean, text => text
  | .comment, text => lineComment text.toList
  | .commentBlock, text => Text.join "\n" ((Text.pieces '\n' text.toList).map lineComment)

/-- Whether a tree is a block comment. -/
def isBlock : Tree → Bool
  | .leaf .commentBlock _ _ => true
  | _ => false

/-- Whether a tree is a line end. -/
def isNewline : Tree → Bool
  | .newline _ => true
  | _ => false

/-- The line end that separates a tree from those that follow: only a block comment needs one,
unless one follows anyway. -/
def lineBreak (tree : Tree) (following : List Tree) : String :=
  match following with
  | [] => ""
  | next :: _ => if isBlock tree && !isNewline next then "\n" else ""

mutual

/-- The text of a tree; nodes without a rendering have none. -/
def render : Tree → String
  | .leaf kind text _ => leafText kind text
  | .newline _ => "\n"
  | .assignment name body _ =>
    "let " ++ name ++ (if body.isEmpty then "" else " = " ++ renderAll body)
  | .call name params _ => name ++ "(" ++ Text.join ", " (renderEach params) ++ ")"
  | .program body _ => renderAll body
  | .bare _ => ""
  | .foreign _ _ => ""
termination_by structural tree => tree

/-- The texts of trees that follow each other. -/
def renderAll : List Tree → String
  | [] => ""
  | tree :: trees => render tree ++ lineBreak tree trees ++ renderAll trees
termination_by structural trees => trees

/-- The texts of trees. -/
def renderEach : List Tree → List String
  | [] => []
  | tree :: trees => render tree :: renderEach trees
termination_by structural trees => trees

end

/-- Render a tree, or give the first node that has no rendering. -/
def emit (tree : Tree) : Except Tree String :=
  match unsupported? tree with
  | some found => .error found
  | none => .ok (render tree)

end XoLang.JavaScript
