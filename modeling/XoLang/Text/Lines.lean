/-!
# Lines

Reading a text file turns each of the line ends CR LF, CR and LF into LF. Texts are cut at a
character, joined with a separator and padded to a width in characters.
-/

namespace XoLang.Text

/-- Write every line end as a line feed. -/
def unifyNewlines : List Char → List Char
  | [] => []
  | '\r' :: '\n' :: cs => '\n' :: unifyNewlines cs
  | c :: cs => (if c = '\r' then '\n' else c) :: unifyNewlines cs

/-- The pieces of a text between the occurrences of a separator; there is always at least one. -/
def pieces [DecidableEq α] (separator : α) : List α → List (List α)
  | [] => [[]]
  | c :: cs =>
    if c = separator then [] :: pieces separator cs
    else
      match pieces separator cs with
      | [] => [[c]]
      | piece :: rest => (c :: piece) :: rest

/-- Texts in order with a separator between each two. -/
def join (separator : String) : List String → String
  | [] => ""
  | [text] => text
  | text :: rest => text ++ separator ++ join separator rest

/-- `n` blanks. -/
def blanks (n : Nat) : String := String.ofList (List.replicate n ' ')

/-- Blanks in front up to a width. -/
def padLeft (width : Nat) (text : String) : String := blanks (width - text.length) ++ text

/-- Blanks behind up to a width. -/
def padRight (width : Nat) (text : String) : String := text ++ blanks (width - text.length)

end XoLang.Text
