import XoLang.Tree.Parser

/-!
# Driving a reader by hand

The single steps of reading tokens, each started wherever the reader stands, with their answers.
A step that fails leaves the reader where it got.
-/

namespace XoLang

/-- A place in a list of tokens that is being read. -/
structure TokenReader where
  tokens : List Token
  file : String
  pos : Nat
  deriving Repr

/-- One step. -/
inductive ReaderStep where
  | peek
  | lookAt (offset : Int)
  | atEnd
  | endLocation
  | advance
  | expect (kind : TokenKind) (what : String)
  | item (context : Context)
  | sequence (context : Context)
  | program
  deriving DecidableEq, Repr

/-- The answer to a step. -/
inductive ReaderAnswer where
  | kind (kind : Option TokenKind)
  | flag (value : Bool)
  | place (location : Location)
  | token (token : Token)
  | tree (tree : Option Tree)
  | trees (trees : List Tree)
  /-- There was no token where one was needed. -/
  | pastEnd
  | failed (error : ParseError)
  deriving Repr

namespace TokenReader

/-- The reader in front of a list of tokens. -/
def start (file : String) (tokens : List Token) : TokenReader := ⟨tokens, file, 0⟩

/-- The tokens that are left. -/
def rest (reader : TokenReader) : List Token := reader.tokens.drop reader.pos

/-- The kind of the token at a distance. A place before the start counts from the end. -/
def lookAt (reader : TokenReader) (offset : Int) : ReaderAnswer :=
  let index := (reader.pos : Int) + offset
  let size : Int := reader.tokens.length
  if 0 ≤ index then .kind ((reader.tokens[index.toNat]?).map (·.kind))
  else if 0 ≤ index + size then .kind ((reader.tokens[(index + size).toNat]?).map (·.kind))
  else .pastEnd

/-- Answer with the outcome of reading what is left. -/
def take (reader : TokenReader) (answer : α → ReaderAnswer) :
    Outcome α → ReaderAnswer × TokenReader
  | .read value taken => (answer value, { reader with pos := reader.pos + taken })
  | .failed fault taken =>
    (.failed ⟨fault, XoLang.endLocation reader.file reader.tokens⟩,
      { reader with pos := reader.pos + taken })

/-- Perform one step. -/
def perform (reader : TokenReader) : ReaderStep → ReaderAnswer × TokenReader
  | .peek => (.kind (reader.rest.head?.map (·.kind)), reader)
  | .lookAt offset => (reader.lookAt offset, reader)
  | .atEnd => (.flag reader.rest.isEmpty, reader)
  | .endLocation => (.place (XoLang.endLocation reader.file reader.tokens), reader)
  | .advance =>
    match reader.rest with
    | [] => (.pastEnd, reader)
    | t :: _ => (.token t, { reader with pos := reader.pos + 1 })
  | .expect kind what => reader.take .token (XoLang.expect kind what reader.rest)
  | .item context => reader.take .tree (XoLang.item context reader.rest)
  | .sequence context => reader.take .trees (XoLang.sequence context reader.rest)
  | .program =>
    reader.take (fun body => .tree (some (.program body (some (.start reader.file)))))
      (XoLang.sequence .statement reader.rest)

/-- Perform steps one after another; each answer comes with the reader after it. -/
def performAll (reader : TokenReader) : List ReaderStep → List (ReaderAnswer × TokenReader)
  | [] => []
  | step :: steps =>
    let done := reader.perform step
    done :: performAll done.2 steps

end TokenReader

end XoLang
