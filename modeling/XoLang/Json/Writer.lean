import XoLang.Decimal.Notation
import XoLang.Json.Value
import XoLang.Text.CodePoint

/-!
# Writing JSON

Values are written on one line, or with one item a line and a fixed indentation. Outside of
generated code texts are written in ASCII: every other character as one or two `\u` escapes of
its UTF-16 units.
-/

namespace XoLang.Json

/-- The escape for one of the characters that have a short one. -/
def shortEscape? (c : Char) : Option Char :=
  if c = '"' then some '"'
  else if c = '\\' then some '\\'
  else if c = '\n' then some 'n'
  else if c = '\r' then some 'r'
  else if c = '\t' then some 't'
  else if c.toNat = 0x0c then some 'f'
  else if c.toNat = 0x08 then some 'b'
  else none

/-- The escape of a UTF-16 unit. -/
def unitEscape (unit : Nat) : List Char := '\\' :: 'u' :: Text.hexDigits 4 unit

/-- A character in an ASCII text. -/
def asciiEscape (c : Char) : List Char :=
  match shortEscape? c with
  | some e => ['\\', e]
  | none =>
    let n := c.toNat
    if 0x20 ≤ n && n < 0x7f then [c]
    else if n < 0x10000 then unitEscape n
    else unitEscape (0xd800 + (n - 0x10000) / 0x400) ++ unitEscape (0xdc00 + (n - 0x10000) % 0x400)

/-- A character in a text that keeps all but the quote, the backslash and the characters below
the space. -/
def plainEscape (c : Char) : List Char :=
  match shortEscape? c with
  | some e => ['\\', e]
  | none => if c.toNat < 0x20 then unitEscape c.toNat else [c]

/-- A text between double quotes, its characters written by `escape`. -/
def textChars (escape : Char → List Char) (text : List Char) : List Char :=
  '"' :: (text.flatMap escape ++ ['"'])

/-- A text in ASCII. -/
def asciiText (text : String) : String := String.ofList (textChars asciiEscape text.toList)

/-- A code point in an ASCII text. -/
def asciiPoint : CodePoint → List Char
  | .char c => asciiEscape c
  | half => unitEscape half.toNat

/-- A text of code points in ASCII. -/
def asciiPoints (text : CodeText) : String :=
  String.ofList ('"' :: (text.flatMap asciiPoint ++ ['"']))

/-- A text that keeps the characters beyond ASCII. -/
def plainText (text : String) : String := String.ofList (textChars plainEscape text.toList)

/-- A floating-point number; the values that are no numbers have names. -/
def floatText : Decimal.Binary → String
  | .nan => "NaN"
  | .infinite negative => if negative then "-Infinity" else "Infinity"
  | x => x.valueText

/-- What stands between two items at a depth: `indent` blanks a level on a new line, or one blank
on the same line. -/
def itemBreak (indent : Option Int) (depth : Nat) : String :=
  match indent with
  | none => ""
  | some n => "\n" ++ Text.blanks (n.toNat * depth)

/-- The comma between two items at a depth. -/
def itemComma (indent : Option Int) (depth : Nat) : String :=
  match indent with
  | none => ", "
  | some _ => "," ++ itemBreak indent depth

/-- Written items between brackets. -/
def enclose (indent : Option Int) (depth : Nat) (opening closing : String)
    (items : List String) : String :=
  if items.isEmpty then opening ++ closing
  else
    opening ++ itemBreak indent (depth + 1) ++ Text.join (itemComma indent (depth + 1)) items ++
      itemBreak indent depth ++ closing

mutual

/-- Write a value that stands at a depth; `quoted` writes texts. -/
def writeAt (quoted : τ → String) (indent : Option Int) (depth : Nat) : Json τ → String
  | .null => "null"
  | .bool value => if value then "true" else "false"
  | .int value => toString value
  | .float value => floatText value
  | .text value => quoted value
  | .list items => enclose indent depth "[" "]" (writeItems quoted indent (depth + 1) items)
  | .object fields =>
    enclose indent depth "\x7b" "\x7d" (writeFields quoted indent (depth + 1) fields)
termination_by structural value => value

/-- Write the items of a list. -/
def writeItems (quoted : τ → String) (indent : Option Int) (depth : Nat) :
    List (Json τ) → List String
  | [] => []
  | item :: items => writeAt quoted indent depth item :: writeItems quoted indent depth items
termination_by structural items => items

/-- Write the fields of an object. -/
def writeFields (quoted : τ → String) (indent : Option Int) (depth : Nat) :
    List (τ × Json τ) → List String
  | [] => []
  | (name, value) :: fields =>
    (quoted name ++ ": " ++ writeAt quoted indent depth value) ::
      writeFields quoted indent depth fields
termination_by structural fields => fields

end

/-- Write a value: on one line, or with `indent` blanks a level. -/
def write (indent : Option Int) (value : Json) : String := writeAt asciiText indent 0 value

/-- Write a value with texts of code points on one line. -/
def writePoints (value : Json CodeText) : String := writeAt asciiPoints none 0 value

end XoLang.Json
