import XoLang.Decimal.Binary

/-!
# Decimal digits of a binary number

Two ways to choose the digits: the fewest that read back as the same number, the nearest of
those; or a fixed count of significant digits, rounded with a half to the even neighbour. All
comparisons are of whole numbers.
-/

namespace XoLang.Decimal

/-- A positive decimal: `digits * 10 ^ exponent`. -/
structure Digits where
  digits : Nat
  exponent : Int
  deriving DecidableEq, Repr

/-- The place `k` with `10 ^ (k - 1) ≤ num / den < 10 ^ k`. -/
def leadingPlace (num den : Nat) : Int :=
  if den ≤ num then digitCount (num / den)
  else
    let d := digitCount (den / num)
    if den ≤ num * tenTo (d - 1) then 2 - d else 1 - d

/-- A quotient divided by `10 ^ place`, as numerator and denominator. -/
def scaleDecimal (num den : Nat) (place : Int) : Nat × Nat :=
  if 0 ≤ place then (num, den * tenTo place.toNat) else (num * tenTo (-place).toNat, den)

/-- Take away the last digits that are zero, at most `fuel` of them. -/
def Digits.strip : Nat → Digits → Digits
  | 0, d => d
  | fuel + 1, d =>
    if d.digits ≠ 0 ∧ d.digits % 10 = 0 then Digits.strip fuel ⟨d.digits / 10, d.exponent + 1⟩
    else d

/-- The decimals that read back as a number, in quarters of the unit of its mantissa: from `low`
to `high`, the ends included when the mantissa is even. -/
structure Neighbourhood where
  low : Nat
  value : Nat
  high : Nat
  closed : Bool

/-- The neighbourhood of a number. Below a power of two the next smaller number is nearer. -/
def neighbourhood (mantissa : Nat) (exponent : Int) : Neighbourhood where
  low := 4 * mantissa - (if mantissa = twoTo 52 ∧ -1074 < exponent then 1 else 2)
  value := 4 * mantissa
  high := 4 * mantissa + 2
  closed := mantissa % 2 = 0

/-- Whether `num * den` quarters, each taken `unit` times, lie in the neighbourhood. -/
def Neighbourhood.holds (n : Neighbourhood) (num den unit : Nat) : Bool :=
  if n.closed then n.low * unit ≤ num * den && num * den ≤ n.high * unit
  else n.low * unit < num * den && num * den < n.high * unit

/-- The point nearest to a number on the grid `10 ^ place`, of two the even one, if it reads back as
that number. -/
def gridPoint? (n : Neighbourhood) (exponent place : Int) : Option Nat :=
  let unit := scaleQuotient 1 1 (2 - exponent)
  let scaled := scaleDecimal unit.1 unit.2 place
  let below := n.value * scaled.1 / scaled.2
  let above := below + 1
  let okBelow := n.holds below scaled.2 scaled.1
  let okAbove := n.holds above scaled.2 scaled.1
  let nearBelow := n.value * scaled.1 - below * scaled.2
  let nearAbove := above * scaled.2 - n.value * scaled.1
  let preferBelow := nearBelow < nearAbove || (nearBelow = nearAbove && below % 2 = 0)
  if okBelow && (!okAbove || preferBelow) then some below
  else if okAbove then some above
  else none

/-- Try grids of more and more digits. -/
def firstGrid (n : Neighbourhood) (exponent lead : Int) : Nat → Nat → Digits
  | 0, count => ⟨(gridPoint? n exponent (lead - count)).getD 0, lead - count⟩
  | fuel + 1, count =>
    match gridPoint? n exponent (lead - count) with
    | some point => ⟨point, lead - count⟩
    | none => firstGrid n exponent lead fuel (count + 1)

/-- The fewest digits that read back as `mantissa * 2 ^ exponent`, a positive number. -/
def shortest (mantissa : Nat) (exponent : Int) : Digits :=
  let unit := scaleQuotient mantissa 1 (-exponent)
  (firstGrid (neighbourhood mantissa exponent) exponent (leadingPlace unit.1 unit.2) 16 1).strip 20

/-- `count` significant digits of `mantissa * 2 ^ exponent`, a positive number. -/
def significant (count mantissa : Nat) (exponent : Int) : Digits :=
  let unit := scaleQuotient mantissa 1 (-exponent)
  let place := leadingPlace unit.1 unit.2 - count
  let scaled := scaleDecimal unit.1 unit.2 place
  (Digits.mk (roundQuotient scaled.1 scaled.2) place).strip (count + 1)

end XoLang.Decimal
