import XoLang.Location
import XoLang.Text.Quoted

/-!
# Tokens

A token has a kind, a text and the place of its first character. The text of a string or a
comment is what stands between its marks, the text of a number its digits.
-/

namespace XoLang

/-- The kinds of tokens. -/
inductive TokenKind where
  | name
  | number
  | string
  | comment
  | commentBlock
  | equals
  | comma
  | parenOpen
  | parenClose
  | braceOpen
  | braceClose
  | newline
  deriving DecidableEq, Repr, Inhabited

namespace TokenKind

/-- Every kind. -/
def all : List TokenKind :=
  [.name, .number, .string, .comment, .commentBlock, .equals, .comma, .parenOpen, .parenClose,
   .braceOpen, .braceClose, .newline]

/-- The label of a kind in texts. -/
def label : TokenKind → String
  | .name => "NAME"
  | .number => "NUMBER"
  | .string => "STRING"
  | .comment => "COMMENT"
  | .commentBlock => "COMMENT_BLOCK"
  | .equals => "EQUALS"
  | .comma => "COMMA"
  | .parenOpen => "PAREN_OPEN"
  | .parenClose => "PAREN_CLOSE"
  | .braceOpen => "BRACE_OPEN"
  | .braceClose => "BRACE_CLOSE"
  | .newline => "NEWLINE"

/-- The kind with that label. -/
def ofLabel? (label : String) : Option TokenKind := all.find? fun kind => kind.label = label

end TokenKind

/-- A token. -/
structure Token where
  kind : TokenKind
  text : String
  location : Location
  deriving DecidableEq, Repr, Inhabited

/-- A token as messages show it. -/
def Token.show (t : Token) : String :=
  "Token(" ++ t.kind.label ++ ", " ++ Text.quoted t.text ++ ", " ++ t.location.text ++ ")"

end XoLang
