import XoLang.Token.Cursor
import XoLang.Token.Lexeme

/-!
# Cutting a source into tokens

`scan` reads lexemes from a cursor to the end of the source or to the first fault. It gives the
tokens or the fault with its place, and the cursor where reading stopped: at the end, on the
unexpected character, or behind what a string or a comment without an end has swallowed.
-/

namespace XoLang

/-- A fault with the place of the token that it spoils. -/
structure LexError where
  fault : LexFault
  location : Location
  deriving DecidableEq, Repr

/-- The report on an error. -/
def LexError.diagnostic (e : LexError) : Diagnostic := e.fault.diagnostic e.location

/-- Tokens or an error, and the cursor where reading stopped. -/
structure Scan where
  result : Except LexError (List Token)
  cursor : Cursor

/-- A scan with one more token in front. -/
def Scan.add (token : Token) (scan : Scan) : Scan where
  result := scan.result.map (token :: ·)
  cursor := scan.cursor

/-- The tokens from a cursor to the end of its source. Every lexeme takes at least one character. -/
def Cursor.scan (delimiter : Delimiter) (file : String) (cursor : Cursor) : Scan :=
  match _rest : cursor.rest with
  | [] => ⟨.ok [], cursor⟩
  | c :: cs =>
    match lexeme delimiter c cs with
    | .gap => Cursor.scan delimiter file (cursor.forward 1)
    | .token kind text size =>
      (Cursor.scan delimiter file (cursor.forward (size - 1 + 1))).add
        ⟨kind, String.ofList text, cursor.location file⟩
    | .failed fault size => ⟨.error ⟨fault, cursor.location file⟩, cursor.forward size⟩
termination_by cursor.rest.length
decreasing_by
  all_goals exact Cursor.length_rest_forward_lt _rest

/-- The tokens of a source. -/
def tokenize (delimiter : Delimiter) (file source : String) : Except LexError (List Token) :=
  ((Cursor.ofSource source).scan delimiter file).result

end XoLang
