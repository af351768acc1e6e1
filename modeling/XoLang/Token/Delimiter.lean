import XoLang.Text.CodePoint
import XoLang.Text.Letter
import XoLang.Token

/-!
# Character classes and the string delimiter

Which characters are blanks, punctuation, digits and parts of names, and which of the others may
delimit strings. A delimiter is a code point that no other rule uses. Half of a surrogate pair is
one too; a source holds only characters and has no strings then.
-/

namespace XoLang

/-- Blanks between tokens. -/
def isGap (c : Char) : Bool := c = ' ' || c = '\t' || c = '\r'

/-- The kind of a token that is one character of punctuation. -/
def punctuation? (c : Char) : Option TokenKind :=
  if c = '\x7b' then some .braceOpen
  else if c = '\x7d' then some .braceClose
  else if c = '(' then some .parenOpen
  else if c = ')' then some .parenClose
  else if c = ',' then some .comma
  else if c = '=' then some .equals
  else none

/-- The digits of numbers. -/
def isDigit (c : Char) : Bool := '0' ≤ c && c ≤ '9'

/-- A character that can start a name. -/
def isNameStart (c : Char) : Bool := Text.isLetter c || c = '_'

/-- A character that can stand in a name. -/
def isNamePart (c : Char) : Bool := Text.isLetter c || isDigit c || c = '_'

/-- Why a text is no string delimiter. -/
inductive DelimiterFault where
  /-- There is no text at all. -/
  | missing
  | notSingle (text : CodeText)
  | tokenCharacter (c : Char)
  | nameOrNumber (c : Char)
  deriving DecidableEq, Repr

/-- The message for a refused delimiter. -/
def DelimiterFault.message : DelimiterFault → String
  | .missing => "String delimiter must be a single character, got []"
  | .notSingle text => "String delimiter must be a single character, got " ++ text.quoted
  | .tokenCharacter c =>
    "String delimiter " ++ Text.quoted (String.singleton c) ++ " is already a token character"
  | .nameOrNumber c =>
    "String delimiter " ++ Text.quoted (String.singleton c) ++
      " would clash with names or numbers"

/-- What speaks against a character as delimiter. -/
def delimiterFault? (c : Char) : Option DelimiterFault :=
  if (punctuation? c).isSome || isGap c || c = '\n' || c = '/' || c = '_' then
    some (.tokenCharacter c)
  else if isDigit c || Text.isLetter c then some (.nameOrNumber c)
  else none

/-- What speaks against a code point as delimiter; nothing does against half of a pair. -/
def markFault? : CodePoint → Option DelimiterFault
  | .char c => delimiterFault? c
  | _ => none

/-- A code point that delimits strings. -/
structure Delimiter where
  mark : CodePoint
  free : markFault? mark = none

/-- The delimiter when nothing else is set. -/
def Delimiter.default : Delimiter := ⟨.char '\'', by decide⟩

/-- The delimiter that a text of one code point stands for. -/
def Delimiter.ofText : CodeText → Except DelimiterFault Delimiter
  | [point] =>
    match h : markFault? point with
    | none => .ok ⟨point, h⟩
    | some fault => .error fault
  | text => .error (.notSingle text)

end XoLang
