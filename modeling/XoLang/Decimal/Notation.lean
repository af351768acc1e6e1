import XoLang.Decimal.Shortest
import XoLang.Text.Lines

/-!
# Decimal notation

How chosen digits are written: positionally or with an exponent, with a point or without. Two
notations are in use, one for values of settings and one for durations in messages.
-/

namespace XoLang.Decimal

/-- The decisions of a decimal notation. -/
structure Notation where
  /-- The least power of ten of the first digit that is written positionally. -/
  lowest : Int
  /-- The power of ten of the first digit from which on an exponent is written. -/
  limit : Int
  /-- Whether a whole number in positional notation ends with a point and a zero. -/
  pointZero : Bool

/-- The digits of a number. -/
def digitText (n : Nat) : String := String.ofList (Nat.toDigits 10 n)

/-- An exponent with its sign and at least two digits. -/
def exponentText (e : Int) : String :=
  (if e < 0 then "e-" else "e+") ++ (if e.natAbs < 10 then "0" else "") ++ digitText e.natAbs

/-- A run of zeros. -/
def zeros (n : Nat) : String := String.ofList (List.replicate n '0')

/-- Digits with a point after the first `n`. -/
def pointAfter (n : Nat) (text : String) : String :=
  if text.length ≤ n then text
  else String.ofList (text.toList.take n) ++ "." ++ String.ofList (text.toList.drop n)

/-- Write a positive decimal. -/
def Notation.write (style : Notation) (d : Digits) : String :=
  let text := digitText d.digits
  let first : Int := d.exponent + text.length - 1
  if first < style.lowest ∨ style.limit ≤ first then pointAfter 1 text ++ exponentText first
  else if first < 0 then "0." ++ zeros (-first - 1).toNat ++ text
  else
    let whole := text ++ zeros d.exponent.toNat
    if d.exponent < 0 then pointAfter (first + 1).toNat text
    else if style.pointZero then whole ++ ".0"
    else whole

/-- Write a number, its digits chosen by `choose`. -/
def Notation.number (style : Notation) (choose : Nat → Int → Digits) : Binary → String
  | .nan => "nan"
  | .infinite negative => if negative then "-inf" else "inf"
  | .finite negative mantissa exponent =>
    (if negative then "-" else "") ++
      (if mantissa = 0 then (if style.pointZero then "0.0" else "0")
       else style.write (choose mantissa exponent))

/-- Numbers in settings: the fewest digits that read back, an exponent from 10^16 on and below
10^-4, and always a point in positional notation. -/
def valueNotation : Notation := ⟨-4, 16, true⟩

/-- Durations in messages: six significant digits, an exponent from 10^6 on and below 10^-4. -/
def durationNotation : Notation := ⟨-4, 6, false⟩

/-- The text of a number in settings. -/
def Binary.valueText (x : Binary) : String := valueNotation.number shortest x

/-- The text of a number in a duration. -/
def Binary.durationText (x : Binary) : String := durationNotation.number (significant 6) x

end XoLang.Decimal
