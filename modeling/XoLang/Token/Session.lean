import XoLang.Token.Lexer

/-!
# Driving a cursor by hand

The single steps of reading, each started wherever the cursor stands, with their answers. A step
that fails leaves the cursor where it got.
-/

namespace XoLang

/-- One step. -/
inductive CursorStep where
  | peek
  | lookAt (offset : Int)
  | atEnd
  | location
  | advance
  | lineComment
  | blockComment
  | string
  | number
  | name
  | tokenize
  deriving DecidableEq, Repr

/-- The answer to a step. -/
inductive CursorAnswer where
  | character (c : Option Char)
  | flag (value : Bool)
  | place (location : Location)
  | token (token : Token)
  | tokens (tokens : List Token)
  /-- There was no character where one was needed. -/
  | pastEnd
  | failed (error : LexError)
  deriving DecidableEq, Repr

namespace Cursor

/-- The answer to a fault of a reading that started at the cursor. -/
def faultAnswer (cursor : Cursor) (file : String) (fault : LexFault) : CursorAnswer :=
  match fault with
  | .pastEnd => .pastEnd
  | fault => .failed ⟨fault, cursor.location file⟩

/-- Read one token. -/
def readToken (cursor : Cursor) (file : String) (kind : TokenKind)
    (read : List Char → Reading) : CursorAnswer × Cursor :=
  match read cursor.rest with
  | .taken text size =>
    (.token ⟨kind, String.ofList text, cursor.location file⟩, cursor.forward size)
  | .failed fault size => (cursor.faultAnswer file fault, cursor.forward size)

/-- Perform one step. -/
def perform (delimiter : Delimiter) (file : String) (cursor : Cursor) :
    CursorStep → CursorAnswer × Cursor
  | .peek => (.character cursor.peek?, cursor)
  | .lookAt offset =>
    (match cursor.lookAt offset with
     | .found c => .character c
     | .outside => .pastEnd, cursor)
  | .atEnd => (.flag cursor.atEnd, cursor)
  | .location => (.place (cursor.location file), cursor)
  | .advance =>
    match cursor.advance? with
    | some (c, next) => (.character (some c), next)
    | none => (.pastEnd, cursor)
  | .lineComment => cursor.readToken file .comment Reading.lineComment
  | .blockComment => cursor.readToken file .commentBlock Reading.blockComment
  | .string => cursor.readToken file .string Reading.string
  | .number => cursor.readToken file .number Reading.number
  | .name => cursor.readToken file .name Reading.name
  | .tokenize =>
    let scan := cursor.scan delimiter file
    (match scan.result with
     | .ok tokens => .tokens tokens
     | .error error => .failed error, scan.cursor)

/-- Perform steps one after another; each answer comes with the cursor after it. -/
def performAll (delimiter : Delimiter) (file : String) (cursor : Cursor) :
    List CursorStep → List (CursorAnswer × Cursor)
  | [] => []
  | step :: steps =>
    let done := cursor.perform delimiter file step
    done :: performAll delimiter file done.2 steps

end Cursor

end XoLang
