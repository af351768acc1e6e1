import XoLang.Decimal.Binary
import XoLang.Text.Integer

/-!
# Reading decimal numbers

A number is written with a sign, digits with a point before, between or behind them, and an
exponent; or it is one of the words for infinity and for no number, in any case. Blanks may stand
around it, and digits of any script count.
-/

namespace XoLang.Decimal

/-- A sign, if there is one, and the rest. -/
def takeSign : List Char → Bool × List Char
  | '-' :: cs => (true, cs)
  | '+' :: cs => (false, cs)
  | cs => (false, cs)

/-- The exponent that a whole text is; an empty text is the exponent zero. -/
def exponentOf? : List Char → Option Int
  | [] => some 0
  | e :: cs =>
    let signed := takeSign cs
    if (e = 'e' || e = 'E') && !signed.2.isEmpty && signed.2.all Char.isDigit then
      let n : Int := Text.digitsValue 10 signed.2
      some (if signed.1 then -n else n)
    else none

/-- The digits behind a point, if there is one, and the rest. -/
def fractionOf : List Char → List Char × List Char
  | '.' :: cs => (cs.takeWhile Char.isDigit, cs.dropWhile Char.isDigit)
  | cs => ([], cs)

/-- The number that digits with a point and an exponent stand for. -/
def Binary.ofDigits? (negative : Bool) (cs : List Char) : Option Binary :=
  let whole := cs.takeWhile Char.isDigit
  let fraction := fractionOf (cs.dropWhile Char.isDigit)
  match exponentOf? fraction.2 with
  | some e =>
    if whole.isEmpty && fraction.1.isEmpty then none
    else some (.ofDecimal negative (Text.digitsValue 10 (whole ++ fraction.1))
      (e - fraction.1.length))
  | none => none

/-- The number that a text stands for. -/
def Binary.ofText? (text : List Char) : Option Binary :=
  let signed := takeSign (Text.plainNumber text)
  let word := String.ofList (signed.2.map Char.toLower)
  if word = "inf" || word = "infinity" then some (.infinite signed.1)
  else if word = "nan" then some .nan
  else Binary.ofDigits? signed.1 signed.2

end XoLang.Decimal
