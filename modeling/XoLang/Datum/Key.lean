import XoLang.Datum

/-!
# Keys

Every value but a collection can be a key. Numbers and truth values are one key if they have one
value, moments if they are one instant. Of entries with one key the last value counts, at the place
of the first.
-/

namespace XoLang.Datum

/-- Whether a value can be a key. -/
def isKey : Datum → Bool
  | .collection _ => false
  | _ => true

/-- A number or a truth value as a signed numerator over `2 ^ 1074`. -/
def numerator? : Datum → Option Int
  | .bool value => some (if value then Decimal.twoTo 1074 else 0)
  | .int value => some (value * Decimal.twoTo 1074)
  | .float value => value.numerator?
  | _ => none

/-- Whether two values are the same key. -/
def sameKey (a b : Datum) : Bool :=
  match a, b with
  | .null, .null => true
  | .int m, .int n => m = n
  | .text s, .text t => s = t
  | .bytes s, .bytes t => s = t
  | .day d, .day e => d = e
  | .moment m, .moment n => m.same n
  | .nan m, .nan n => m = n
  | .float (.infinite s), .float (.infinite t) => s = t
  | a, b =>
    match a.numerator?, b.numerator? with
    | some m, some n => m = n
    | _, _ => false

/-- Set an entry: a key that is there keeps its place, a new one comes last. -/
def setEntry (key value : Datum) : List (Datum × Datum) → List (Datum × Datum)
  | [] => [(key, value)]
  | entry :: rest =>
    if entry.1.sameKey key then (entry.1, value) :: rest else entry :: setEntry key value rest

/-- The value of the entry whose key is that text. -/
def entry? (name : String) (entries : List (Datum × Datum)) : Option Datum :=
  (entries.find? fun entry => entry.1.sameKey (.text (.ofString name))).map (·.2)

end XoLang.Datum
