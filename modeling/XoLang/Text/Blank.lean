import XoLang.Text.CodePoint
import XoLang.Text.Ranges

/-!
# Blanks and words

A blank is a character with the white-space property: the separators, the line ends and the
information separators U+001C to U+001F. Words are the maximal runs without a blank.
-/

namespace XoLang.Text

/-- The blanks, as ascending closed ranges of code points. -/
def blankRanges : Ranges :=
  [(0x9, 0xd), (0x1c, 0x20), (0x85, 0x85), (0xa0, 0xa0), (0x1680, 0x1680), (0x2000, 0x200a),
   (0x2028, 0x2029), (0x202f, 0x202f), (0x205f, 0x205f), (0x3000, 0x3000)]

/-- Whether a character is a blank. -/
def isBlank (c : Char) : Bool := blankRanges.has c.toNat

/-- Put a code point in front of the first of a list of words. -/
def addToFirst (point : CodePoint) : List CodeText → List CodeText
  | [] => [[point]]
  | word :: words => (point :: word) :: words

/-- The pieces between blanks, empty ones included. -/
def blankPieces : CodeText → List CodeText
  | [] => [[]]
  | point :: text =>
    if point.char?.any isBlank then [] :: blankPieces text
    else addToFirst point (blankPieces text)

/-- The words of a text in order. -/
def words (text : CodeText) : List CodeText :=
  (blankPieces text).filter fun piece => !piece.isEmpty

end XoLang.Text
