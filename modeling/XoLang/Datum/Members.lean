import XoLang.Datum

/-!
# The order of a set

The members of a set of numbers stand in a table of slots and are shown in the order of the slots.
A number starts at the slot that its residue modulo 2^61 - 1 gives; if that is taken, the slots
behind it and then others in a fixed sequence follow. The order of a set with any other members is a
parameter.
-/

namespace XoLang.Datum

/-- The modulus of residues, a prime. -/
def slotModulus : Nat := Decimal.twoTo 61 - 1

/-- A residue with a sign; minus one is not in use. -/
def signedResidue (negative : Bool) (n : Nat) : Int :=
  let residue : Int := (n % slotModulus : Nat)
  if negative then (if residue = 1 then -2 else -residue) else residue

/-- The residue of a number. A power of two has the period 61. -/
def residue? : Datum → Option Int
  | .bool value => some (if value then 1 else 0)
  | .int value => some (signedResidue (value < 0) value.natAbs)
  | .float (.finite negative mantissa exponent) =>
    some (signedResidue negative (mantissa * Decimal.twoTo (exponent % 61).toNat))
  | .float (.infinite negative) => some (if negative then -314159 else 314159)
  | _ => none

/-- The slots that are tried from a slot on, in a table of `size` slots. -/
def slotRun (size slot : Nat) : List Nat :=
  if slot + 9 < size then (List.range 10).map (slot + ·) else [slot]

/-- The first free slot from a slot on; `rest` is what is left of the residue, five bits of which
come in with every leap. Once it is used up the leaps lead through all slots. -/
def freeSlot (slots : Array (Option Datum)) : Nat → Nat → Nat → Nat
  | 0, _, slot => slot
  | fuel + 1, rest, slot =>
    match (slotRun slots.size slot).find? fun i => (slots.getD i none).isNone with
    | some i => i
    | none => freeSlot slots fuel (rest / 32) ((5 * slot + 1 + rest / 32) % slots.size)

/-- How many slots the table of a set with `count` members has: a power of two. -/
def slotCount (count : Nat) : Nat :=
  if count < 5 then 8 else Decimal.twoTo ((2 * count).log2 + 1)

/-- Put a member with its residue into a table. -/
def placeMember (slots : Array (Option Datum)) (member : Datum × Int) : Array (Option Datum) :=
  let word := (member.2 % (Decimal.twoTo 64 : Nat)).toNat
  slots.setIfInBounds (freeSlot slots (slots.size + 16) word (word % slots.size)) (some member.1)

/-- The members of a set in the order of the set; `order` is that of members that are not all
numbers. -/
def setOrder (order : List Datum → List Datum) (members : List Datum) : List Datum :=
  match members.mapM residue? with
  | none => order members
  | some residues =>
    let empty := Array.replicate (slotCount members.length) (none : Option Datum)
    ((members.zip residues).foldl placeMember empty).toList.filterMap id

end XoLang.Datum
