import XoLang.Text.Hex
import XoLang.Text.Printable

/-!
# Quoted text

Texts are shown in messages and dumps between quotes, in one line, with every character that is
not printable escaped. The quote is the apostrophe, unless the text has an apostrophe and no
double quote.
-/

namespace XoLang.Text

/-- The quote that encloses a text. -/
def quoteFor (text : List Char) : Char :=
  if text.contains '\'' && !text.contains '"' then '"' else '\''

/-- A character as it stands between quotes. -/
def escapedIn (quote c : Char) : List Char :=
  if c = quote || c = '\\' then ['\\', c]
  else if c = '\n' then ['\\', 'n']
  else if c = '\r' then ['\\', 'r']
  else if c = '\t' then ['\\', 't']
  else if isPrintable c then [c]
  else if c.toNat < 0x100 then '\\' :: 'x' :: hexDigits 2 c.toNat
  else if c.toNat < 0x10000 then '\\' :: 'u' :: hexDigits 4 c.toNat
  else '\\' :: 'U' :: hexDigits 8 c.toNat

/-- The characters of a text in quotes. -/
def quotedChars (text : List Char) : List Char :=
  let quote := quoteFor text
  quote :: (text.flatMap (escapedIn quote) ++ [quote])

/-- A text in quotes. -/
def quoted (text : String) : String := String.ofList (quotedChars text.toList)

/-- A byte as it stands between quotes: an ASCII character that is printable stands for itself. -/
def escapedByteIn (quote : Char) (byte : UInt8) : List Char :=
  if byte < 0x7f then escapedIn quote (Char.ofNat byte.toNat)
  else '\\' :: 'x' :: hexDigits 2 byte.toNat

/-- Bytes in quotes, with a mark in front. -/
def quotedBytes (bytes : List UInt8) : String :=
  let quote := quoteFor (bytes.map fun byte => Char.ofNat byte.toNat)
  String.ofList ('b' :: quote :: (bytes.flatMap (escapedByteIn quote) ++ [quote]))

end XoLang.Text
