import XoLang.Text.Quoted

/-!
# Code points

An escape can name half of a surrogate pair, so what escapes write is a text of code points:
characters and halves of pairs. Two halves that follow each other are still two code points. Where
such a text is written out they give their character, and a half by itself the replacement
character.
-/

namespace XoLang

/-- A character or half of a pair. -/
inductive CodePoint where
  | char (c : Char)
  /-- A first half; it holds the upper ten bits of the distance of its character from U+10000. -/
  | high (bits : Fin 0x400)
  /-- A second half; it holds the lower ten bits. -/
  | low (bits : Fin 0x400)
  deriving DecidableEq, Repr

namespace CodePoint

/-- The code point with a number below 0x110000. -/
def ofNat (n : Nat) : CodePoint :=
  if 0xd800 ≤ n && n < 0xdc00 then .high (Fin.ofNat 0x400 n)
  else if 0xdc00 ≤ n && n < 0xe000 then .low (Fin.ofNat 0x400 n)
  else .char (Char.ofNat n)

/-- The number of a code point. -/
def toNat : CodePoint → Nat
  | .char c => c.toNat
  | .high bits => 0xd800 + bits
  | .low bits => 0xdc00 + bits

/-- The character that a code point is. -/
def char? : CodePoint → Option Char
  | .char c => some c
  | _ => none

/-- A code point by itself as a character. -/
def shown : CodePoint → Char
  | .char c => c
  | _ => Char.ofNat 0xfffd

/-- The character of a pair. -/
def pair (high low : Fin 0x400) : Char := Char.ofNat (0x10000 + 0x400 * high + low)

/-- A code point as it stands between quotes. -/
def escapedIn (quote : Char) : CodePoint → List Char
  | .char c => Text.escapedIn quote c
  | half => '\\' :: 'u' :: Text.hexDigits 4 half.toNat

end CodePoint

/-- A text of code points. -/
abbrev CodeText := List CodePoint

namespace CodeText

/-- Characters as code points. -/
def ofChars (cs : List Char) : CodeText := cs.map .char

/-- The code points of a string. -/
def ofString (text : String) : CodeText := ofChars text.toList

instance : Coe String CodeText := ⟨ofString⟩

/-- The characters of a text that has no halves. -/
def chars? (text : CodeText) : Option (List Char) := text.mapM CodePoint.char?

/-- The characters of a text, with the halves of each pair joined. -/
def joined : CodeText → List Char
  | .high upper :: .low lower :: rest => CodePoint.pair upper lower :: joined rest
  | point :: rest => point.shown :: joined rest
  | [] => []

/-- A text as a string. -/
def text (code : CodeText) : String := String.ofList code.joined

/-- The characters of a text in quotes. -/
def quotedChars (text : CodeText) : List Char :=
  let quote := Text.quoteFor (text.filterMap CodePoint.char?)
  quote :: (text.flatMap (CodePoint.escapedIn quote) ++ [quote])

/-- A text in quotes. -/
def quoted (text : CodeText) : String := String.ofList text.quotedChars

/-- Characters are not joined with anything. -/
theorem joined_ofChars (cs : List Char) : joined (ofChars cs) = cs := by
  induction cs with
  | nil => rfl
  | cons c cs ih => exact congrArg (c :: ·) ih

/-- A string is its own text. -/
@[simp] theorem text_ofString (s : String) : text (ofString s) = s := by
  simp [text, ofString, joined_ofChars]

/-- A string has no halves. -/
@[simp] theorem chars?_ofString (s : String) : chars? (ofString s) = some s.toList := by
  simp only [chars?, ofString, ofChars]
  induction s.toList with
  | nil => rfl
  | cons c cs ih => simp [CodePoint.char?, ih]

end CodeText

end XoLang
