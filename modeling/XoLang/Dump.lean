import XoLang.Compile

/-!
# Dumps for readers

Tokens one a line, trees indented, diagnostics and successes with a mark in front. Colour is a
sequence of escape codes around a piece of text; the texts of tokens and nodes are quoted, so they
bring none of their own. Long lists are cut off, and a last line tells how many items are missing.
-/

namespace XoLang.Dump

/-- The colours and weights in use. -/
inductive Ink where
  | red
  | green
  | cyan
  | bold
  | dim
  deriving DecidableEq, Repr

/-- The number of an ink in escape codes. -/
def Ink.code : Ink → String
  | .red => "31"
  | .green => "32"
  | .cyan => "36"
  | .bold => "1"
  | .dim => "2"

/-- A text in an ink, if colour is wanted. -/
def paint (colour : Bool) (ink : Ink) (text : String) : String :=
  if colour then "\x1b[" ++ ink.code ++ "m" ++ text ++ "\x1b[0m" else text

/-- How many of `size` items a limit leaves: at most `n`, or all but the last `n` for `-n`. -/
def shownCount (limit : Option Int) (size : Nat) : Nat :=
  match limit with
  | none => size
  | some n => if 0 ≤ n then min n.toNat size else size - (-n).toNat

/-- The items that a limit leaves. -/
def shown (limit : Option Int) (items : List α) : List α :=
  items.take (shownCount limit items.length)

/-- The line that tells how many items are missing, if any are. -/
def moreLines (colour : Bool) (limit : Option Int) (indent : String) (size : Nat) : List String :=
  let missing := size - shownCount limit size
  if missing = 0 then []
  else [indent ++ paint colour .dim ("… " ++ toString missing ++ " more")]

/-- A token on a line: place, kind and text. -/
def tokenLine (colour : Bool) (t : Token) : String :=
  paint colour .dim (Text.padLeft 8 t.location.position) ++ "  " ++
    paint colour .cyan (Text.padRight 14 t.kind.label) ++ " " ++ Text.quoted t.text

/-- Tokens, one a line. -/
def tokens (colour : Bool) (limit : Option Int) (ts : List Token) : String :=
  Text.join "\n" ((shown limit ts).map (tokenLine colour) ++ moreLines colour limit "" ts.length)

/-- The first line of a node. -/
def heading (colour : Bool) (depth : Nat) (tree : Tree) : String :=
  Text.blanks (2 * depth) ++ paint colour .bold tree.label ++
    (match tree.caption? with
     | some (name, text) => " " ++ name ++ "=" ++ Text.quoted text
     | none => "")

/-- The lines of a list of nodes under its name; `each` holds the lines of every node. -/
def listing (colour : Bool) (limit : Option Int) (depth : Nat) (name : String)
    (each : List (List String)) : List String :=
  (Text.blanks (2 * depth) ++ "  " ++ paint colour .dim (name ++ ":")) ::
    ((shown limit each).flatten ++
      moreLines colour limit (Text.blanks (2 * depth) ++ "    ") each.length)

mutual

/-- The lines of a tree that stands at a depth. -/
def treeLines (colour : Bool) (limit : Option Int) (depth : Nat) (tree : Tree) : List String :=
  match tree with
  | .leaf kind text location => [heading colour depth (.leaf kind text location)]
  | .newline location => [heading colour depth (.newline location)]
  | .assignment name body location =>
    heading colour depth (.assignment name body location) ::
      listing colour limit depth "body" (eachLines colour limit (depth + 2) body)
  | .call name params location =>
    heading colour depth (.call name params location) ::
      listing colour limit depth "params" (eachLines colour limit (depth + 2) params)
  | .program body location =>
    heading colour depth (.program body location) ::
      listing colour limit depth "body" (eachLines colour limit (depth + 2) body)
  | .bare location => [heading colour depth (.bare location)]
  | .foreign kind location => [heading colour depth (.foreign kind location)]
termination_by structural tree

/-- The lines of every tree of a list. -/
def eachLines (colour : Bool) (limit : Option Int) (depth : Nat) (trees : List Tree) :
    List (List String) :=
  match trees with
  | [] => []
  | tree :: trees => treeLines colour limit depth tree :: eachLines colour limit depth trees
termination_by structural trees

end

/-- A tree, one node a line. -/
def tree (colour : Bool) (limit : Option Int) (tree : Tree) : String :=
  Text.join "\n" (treeLines colour limit 0 tree)

/-- What stands before the message of a diagnostic: its place, or else a file if one is named. -/
def origin (file : Option String) (d : Diagnostic) : String :=
  match d.location, file with
  | some location, _ => location.text ++ ": "
  | none, some file => if file.isEmpty then "" else file ++ ": "
  | none, none => ""

/-- A diagnostic on a line. -/
def diagnosticLine (colour : Bool) (file : Option String) (d : Diagnostic) : String :=
  " " ++ paint colour .red "✖" ++ "  " ++ origin file d ++ paint colour .red d.message ++ " " ++
    paint colour .dim ("[" ++ d.kind.name ++ "]")

/-- Diagnostics, one a line. -/
def diagnostics (colour : Bool) (file : Option String) (ds : List Diagnostic) : String :=
  Text.join "\n" (ds.map (diagnosticLine colour file))

/-- A message of success. -/
def success (colour : Bool) (message : String) : String :=
  " " ++ paint colour .green "✔" ++ "  " ++ message

end XoLang.Dump
