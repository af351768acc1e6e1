import XoLang.Text.DecimalDigit
import XoLang.Text.Hex
import XoLang.Text.Lines

/-!
# Whole numbers

A whole number to a base up to sixteen is written with blanks around it, a sign, a mark if the base
is 2, 8 or 16, and digits of any script with single underscores between them. Decimal numbers have
a greatest count of digits, which is checked before what follows the digits.
-/

namespace XoLang.Text

/-- Why a text is no whole number. -/
inductive IntegerFault where
  | notInteger
  /-- The number has more digits than a decimal number may have. -/
  | tooManyDigits (count : Nat)
  deriving DecidableEq, Repr

/-- The most digits that a decimal number may have. -/
def digitLimit : Nat := 4300

/-- Whether a character is a digit to a base. -/
def isDigitTo (base : Nat) (c : Char) : Bool := (hexValue? c).any (· < base)

/-- The number that digits to a base stand for. -/
def digitsValue (base : Nat) (digits : List Char) : Nat :=
  digits.foldl (fun n c => base * n + (hexValue? c).getD 0) 0

/-- The letters of the mark of a base, which follows a zero. -/
def baseLetters (base : Nat) : List Char :=
  if base = 2 then ['b', 'B']
  else if base = 8 then ['o', 'O']
  else if base = 16 then ['x', 'X']
  else []

/-- A text without the mark of a base; an underscore may follow the mark. -/
def withoutBaseMark (base : Nat) : List Char → List Char
  | '0' :: letter :: cs =>
    if (baseLetters base).contains letter then
      (match cs with
       | '_' :: rest => rest
       | rest => rest)
    else '0' :: letter :: cs
  | cs => cs

/-- The number that a text without sign and mark stands for. -/
def naturalTo (base : Nat) (cs : List Char) : Except IntegerFault Nat :=
  let run := cs.takeWhile fun c => isDigitTo base c || c = '_'
  let digits := run.filter (· ≠ '_')
  if (pieces '_' run).any List.isEmpty then .error .notInteger
  else if base = 10 && digitLimit < digits.length then .error (.tooManyDigits digits.length)
  else if run.length = cs.length then .ok (digitsValue base digits)
  else .error .notInteger

/-- The whole number to a base that a text stands for. -/
def readInteger (base : Nat) (text : List Char) : Except IntegerFault Int :=
  match plainNumber text with
  | '-' :: cs => (naturalTo base (withoutBaseMark base cs)).map fun n => -(n : Int)
  | '+' :: cs => (naturalTo base (withoutBaseMark base cs)).map fun n => (n : Int)
  | cs => (naturalTo base (withoutBaseMark base cs)).map fun n => (n : Int)

end XoLang.Text
