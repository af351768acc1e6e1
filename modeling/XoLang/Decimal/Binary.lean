/-!
# Binary floating-point numbers

Numbers of double precision as exact data: a sign, a mantissa below 2^53 and an exponent from
-1074 to 971. A mantissa below 2^52 occurs only with the least exponent, so every value but zero
has one form; zero has a sign. Rounding goes to the nearest number, and of two to the one with
the even mantissa.
-/

namespace XoLang.Decimal

/-- A number of double precision: `(-1) ^ negative * mantissa * 2 ^ exponent`, or no number. -/
inductive Binary where
  | finite (negative : Bool) (mantissa : Nat) (exponent : Int)
  | infinite (negative : Bool)
  | nan
  deriving DecidableEq, Repr, Inhabited

/-- A power of two. -/
abbrev twoTo (n : Nat) : Nat := Nat.pow 2 n

/-- A power of ten. -/
abbrev tenTo (n : Nat) : Nat := Nat.pow 10 n

/-- The quotient of two numbers rounded to a whole number, a half to the even neighbour. -/
def roundQuotient (num den : Nat) : Nat :=
  let quotient := num / den
  let rest := num % den
  if 2 * rest < den then quotient
  else if den < 2 * rest then quotient + 1
  else if quotient % 2 = 0 then quotient
  else quotient + 1

/-- The quotient of two numbers divided by `2 ^ exponent`, as numerator and denominator. -/
def scaleQuotient (num den : Nat) (exponent : Int) : Nat × Nat :=
  if 0 ≤ exponent then (num, den * twoTo exponent.toNat) else (num * twoTo (-exponent).toNat, den)

/-- A mantissa of at most 2^53 with its exponent, brought into the allowed form. -/
def Binary.normalize (negative : Bool) (mantissa : Nat) (exponent : Int) : Binary :=
  let m := if mantissa = twoTo 53 then twoTo 52 else mantissa
  let e := if mantissa = twoTo 53 then exponent + 1 else exponent
  if 971 < e then .infinite negative
  else if m = 0 then .finite negative 0 (-1074)
  else .finite negative m e

/-- The number nearest to a quotient. -/
def Binary.ofQuotient (negative : Bool) (num den : Nat) : Binary :=
  if num = 0 then .finite negative 0 (-1074)
  else
    let least : Int := max ((num.log2 : Int) - (den.log2 : Int) - 53) (-1074)
    let wide := scaleQuotient num den least
    let exponent := if twoTo 53 ≤ wide.1 / wide.2 then least + 1 else least
    let exact := scaleQuotient num den exponent
    Binary.normalize negative (roundQuotient exact.1 exact.2) exponent

/-- The count of decimal digits of a number; zero has one. -/
def digitCount (n : Nat) : Nat := (Nat.toDigits 10 n).length

/-- The number nearest to `digits * 10 ^ exponent`. Values that are certainly too large or too
small are not computed. -/
def Binary.ofDecimal (negative : Bool) (digits : Nat) (exponent : Int) : Binary :=
  let size : Int := digitCount digits + exponent
  if digits = 0 then .finite negative 0 (-1074)
  else if 310 < size then .infinite negative
  else if size < -330 then .finite negative 0 (-1074)
  else if 0 ≤ exponent then Binary.ofQuotient negative (digits * tenTo exponent.toNat) 1
  else Binary.ofQuotient negative digits (tenTo (-exponent).toNat)

/-- The number nearest to a whole number. -/
def Binary.ofInt (n : Int) : Binary := Binary.ofQuotient (n < 0) n.natAbs 1

/-- The same number with the other sign. -/
def Binary.neg : Binary → Binary
  | .finite negative mantissa exponent => .finite (!negative) mantissa exponent
  | .infinite negative => .infinite (!negative)
  | .nan => .nan

/-- Whether a number is zero, of either sign. -/
def Binary.isZero : Binary → Bool
  | .finite _ mantissa _ => mantissa = 0
  | _ => false

/-- A finite number as a signed numerator over `2 ^ 1074`. -/
def signedNumerator (negative : Bool) (mantissa : Nat) (exponent : Int) : Int :=
  let size : Nat := mantissa * twoTo (exponent + 1074).toNat
  if negative then -(size : Int) else size

/-- The numerator over `2 ^ 1074` of a number that is finite. -/
def Binary.numerator? : Binary → Option Int
  | .finite negative mantissa exponent => some (signedNumerator negative mantissa exponent)
  | _ => none

/-- The number nearest to a signed numerator over `2 ^ shift`. -/
def Binary.ofShifted (num : Int) (shift : Nat) : Binary :=
  Binary.ofQuotient (num < 0) num.natAbs (twoTo shift)

/-- The rounded sum of two numbers. A sum of zero is positive, unless both numbers are negative. -/
def Binary.add : Binary → Binary → Binary
  | .nan, _ => .nan
  | _, .nan => .nan
  | .infinite s, .infinite t => if s = t then .infinite s else .nan
  | .infinite s, _ => .infinite s
  | _, .infinite t => .infinite t
  | .finite s m e, .finite t n f =>
    let sum := signedNumerator s m e + signedNumerator t n f
    if sum = 0 then .finite (s && t) 0 (-1074) else Binary.ofShifted sum 1074

/-- The rounded product of two numbers. -/
def Binary.mul : Binary → Binary → Binary
  | .nan, _ => .nan
  | _, .nan => .nan
  | .infinite s, .infinite t => .infinite (s ≠ t)
  | .infinite s, .finite t n _ => if n = 0 then .nan else .infinite (s ≠ t)
  | .finite s m _, .infinite t => if m = 0 then .nan else .infinite (s ≠ t)
  | .finite s m e, .finite t n f =>
    let scaled := scaleQuotient (m * n) 1 (-(e + f))
    Binary.ofQuotient (s ≠ t) scaled.1 scaled.2

end XoLang.Decimal
