/-!
# Places in source files

Lines and columns count from one. Places that come from elsewhere than the lexer may hold any
whole numbers.
-/

namespace XoLang

/-- A place in a named source. -/
structure Location where
  line : Int
  column : Int
  file : String
  deriving DecidableEq, Repr, Inhabited

namespace Location

/-- The name of a source that is not a file. -/
def unnamed : String := "<stdin>"

/-- The first place of a source. -/
def start (file : String) : Location := ⟨1, 1, file⟩

/-- Line and column with a colon between them. -/
def position (l : Location) : String := toString l.line ++ ":" ++ toString l.column

/-- File, line and column with colons between them. -/
def text (l : Location) : String := l.file ++ ":" ++ l.position

end Location

end XoLang
