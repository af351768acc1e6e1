import XoLang.Datum
import XoLang.Datum.Fault
import XoLang.Decimal.Reader
import XoLang.Text.Lower

/-!
# Numbers in YAML

The numbers that scalars stand for. Underscores are left out, a sign comes first, and colons
separate the places of a number to the base sixty. What remains may have a sign of its own. Halves
of surrogate pairs are no digits, and are named in the fault.
-/

namespace XoLang.Yaml

/-- The places of a number to the base sixty. -/
def places (text : CodeText) : List CodeText := Text.pieces (.char ':') text

/-- A sign, if there is one, and the rest. -/
def takeSign : CodeText → Bool × CodeText
  | .char '-' :: rest => (true, rest)
  | .char '+' :: rest => (false, rest)
  | text => (false, text)

/-- A whole number to a base. -/
def integerTo (base : Nat) (text : CodeText) : Except ValueFault Int :=
  (Text.readInteger base (text.map CodePoint.shown)).mapError (ValueFault.ofInteger base text)

/-- A whole number behind its sign: binary, hexadecimal, octal, to the base sixty or decimal. -/
def integerBody : CodeText → Except ValueFault Int
  | [] => .error .emptyNumber
  | [.char '0'] => .ok 0
  | .char '0' :: .char 'b' :: rest => integerTo 2 rest
  | .char '0' :: .char 'x' :: rest => integerTo 16 rest
  | .char '0' :: rest => integerTo 8 (.char '0' :: rest)
  | text =>
    if text.contains (.char ':') then do
      let places ← (places text).mapM (integerTo 10)
      return places.foldl (fun n place => 60 * n + place) 0
    else integerTo 10 text

/-- A text without underscores. -/
def withoutUnderscores (text : CodeText) : CodeText := text.filter (· ≠ .char '_')

/-- The whole number that a text stands for. -/
def integer (text : CodeText) : Except ValueFault Int :=
  let (negative, body) := takeSign (withoutUnderscores text)
  (integerBody body).map fun n => if negative then -n else n

/-- A floating-point number without colons. -/
def floatPlace (text : CodeText) : Except ValueFault Decimal.Binary :=
  match Decimal.Binary.ofText? (text.map CodePoint.shown) with
  | some x => .ok x
  | none => .error (.notFloat text)

/-- The sum of the places of a number to the base sixty, the lowest first; every product and every
sum is rounded. -/
def sumPlaces (sum : Decimal.Binary) (unit : Nat) :
    List Decimal.Binary → Except ValueFault Decimal.Binary
  | [] => .ok sum
  | place :: places =>
    match Decimal.Binary.ofInt unit with
    | .infinite _ => .error .placeTooLarge
    | scale => sumPlaces (sum.add (place.mul scale)) (60 * unit) places

/-- A floating-point number behind its sign. -/
def floatBody (text : CodeText) : Except ValueFault Decimal.Binary :=
  if text = .ofString ".inf" then .ok (.infinite false)
  else if text.contains (.char ':') then do
    let places ← (places text).mapM floatPlace
    sumPlaces (.ofInt 0) 1 places.reverse
  else floatPlace text

/-- The floating-point number that a text stands for; case does not matter. All texts of the form
`.nan` have one origin, and any other text has its own. -/
def float (origin : Nat) (text : CodeText) : Except ValueFault Datum :=
  match (withoutUnderscores text).lower with
  | [] => .error .emptyNumber
  | all =>
    let (negative, body) := takeSign all
    if body = .ofString ".nan" then .ok (.nan 0)
    else (floatBody body).map fun x => .ofBinary (origin + 1) (if negative then x.neg else x)

end XoLang.Yaml
