import XoLang.Diagnostic
import XoLang.Token.Delimiter

/-!
# Lexemes

Readers that take the characters of one token off the front of a text. A reader does not look at
what it starts on: the opening marks of a comment are any two characters, the quote of a string
is whatever comes first. `lexeme` chooses the reader by the first characters.

A reading tells how many characters it passed, also when it failed.
-/

namespace XoLang

/-- Why no token can be read. -/
inductive LexFault where
  /-- The characters end in the opening marks. -/
  | pastEnd
  | openString
  | openComment
  | unexpected (c : Char)
  deriving DecidableEq, Repr

/-- The message of a fault. -/
def LexFault.message : LexFault → String
  | .pastEnd => "Unexpected end of input"
  | .openString => "Unterminated string literal"
  | .openComment => "Unterminated block comment"
  | .unexpected c => "Unexpected character " ++ Text.quoted (String.singleton c)

/-- The report on a fault at a place. -/
def LexFault.diagnostic (fault : LexFault) (location : Location) : Diagnostic :=
  Diagnostic.lexical fault.message (some location)
    (match fault with
     | .unexpected c => some (String.singleton c)
     | _ => none)

/-- What a reader found: the text of a token, or a fault, and how many characters it passed. -/
inductive Reading where
  | taken (text : List Char) (size : Nat)
  | failed (fault : LexFault) (size : Nat)
  deriving DecidableEq, Repr

namespace Reading

/-- A comment that ends before the next line feed. -/
def lineComment : List Char → Reading
  | _ :: _ :: cs =>
    let text := cs.takeWhile (· != '\n')
    .taken text (text.length + 2)
  | cs => .failed .pastEnd cs.length

/-- The characters up to the mark that closes a block comment in which `depth` more comments are
open. -/
def commentBody? : Nat → List Char → Option (List Char)
  | _, [] => none
  | depth, '/' :: '*' :: cs => (commentBody? (depth + 1) cs).map ('/' :: '*' :: ·)
  | 0, '*' :: '/' :: _ => some []
  | depth + 1, '*' :: '/' :: cs => (commentBody? depth cs).map ('*' :: '/' :: ·)
  | depth, c :: cs => (commentBody? depth cs).map (c :: ·)

/-- A comment between marks that nest. -/
def blockComment : List Char → Reading
  | _ :: _ :: cs =>
    match commentBody? 0 cs with
    | some text => .taken text (text.length + 4)
    | none => .failed .openComment (cs.length + 2)
  | cs => .failed .pastEnd cs.length

/-- A string between two quotes; there are no escapes. -/
def string : List Char → Reading
  | [] => .failed .pastEnd 0
  | quote :: cs =>
    let text := cs.takeWhile (· != quote)
    if text.length < cs.length then .taken text (text.length + 2)
    else .failed .openString (cs.length + 1)

/-- Whether a text starts with a digit. -/
def digitFollows (cs : List Char) : Bool := cs.head?.any isDigit

/-- The longest run of digits and of underscores that stand before a digit. -/
def numberRun : List Char → List Char
  | [] => []
  | c :: cs =>
    if isDigit c || (c = '_' && digitFollows cs) then c :: numberRun cs else []

/-- A number; its text leaves out the underscores. -/
def number (cs : List Char) : Reading :=
  let run := numberRun cs
  .taken (run.filter (· != '_')) run.length

/-- A name. -/
def name (cs : List Char) : Reading :=
  let text := cs.takeWhile isNamePart
  .taken text text.length

end Reading

/-- What stands at the front of a text. -/
inductive Lexeme where
  | gap
  | token (kind : TokenKind) (text : List Char) (size : Nat)
  | failed (fault : LexFault) (size : Nat)
  deriving DecidableEq, Repr

/-- A reading as a token of a kind. -/
def Lexeme.ofReading (kind : TokenKind) : Reading → Lexeme
  | .taken text size => .token kind text size
  | .failed fault size => .failed fault size

/-- What stands at the front of the text `c :: cs`. Blanks, line ends and punctuation come first,
then comments, strings, numbers and names. -/
def lexeme (delimiter : Delimiter) (c : Char) (cs : List Char) : Lexeme :=
  if isGap c then .gap
  else if c = '\n' then .token .newline ['\n'] 1
  else
    match punctuation? c with
    | some kind => .token kind [c] 1
    | none =>
      if c = '/' && cs.head? = some '/' then .ofReading .comment (.lineComment (c :: cs))
      else if c = '/' && cs.head? = some '*' then .ofReading .commentBlock (.blockComment (c :: cs))
      else if delimiter.mark = .char c then .ofReading .string (.string (c :: cs))
      else if isDigit c then .ofReading .number (.number (c :: cs))
      else if isNameStart c then .ofReading .name (.name (c :: cs))
      else .failed (.unexpected c) 0

end XoLang
