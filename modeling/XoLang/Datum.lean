import XoLang.Datum.Calendar
import XoLang.Text.CodePoint

/-!
# Values of settings

What a settings file can hold: nothing, truth values, numbers, texts, bytes, dates, and
collections. A collection may hold itself, so collections are kept in a table and values name
them by their index. Of numbers that are none each has an origin: two of them are one key only if
they have one origin.
-/

namespace XoLang

/-- A value of a settings file. -/
inductive Datum where
  | null
  | bool (value : Bool)
  | int (value : Int)
  | float (value : Decimal.Binary)
  /-- No number. -/
  | nan (origin : Nat)
  | text (value : CodeText)
  | bytes (value : List UInt8)
  | day (value : Day)
  | moment (value : Moment)
  /-- The collection with an index. -/
  | collection (index : Nat)
  deriving Repr, Inhabited

/-- A collection of values. -/
inductive Collection where
  | list (items : List Datum)
  | map (entries : List (Datum × Datum))
  | set (members : List Datum)
  | pair (first second : Datum)
  deriving Repr, Inhabited

/-- A value with the collections that it is made of. -/
structure Document where
  root : Datum
  collections : Array Collection
  deriving Repr

/-- The value of a floating-point number with an origin. -/
def Datum.ofBinary (origin : Nat) : Decimal.Binary → Datum
  | .nan => .nan origin
  | x => .float x

namespace Document

/-- The collection that a value is. -/
def collection? (document : Document) : Datum → Option Collection
  | .collection index => document.collections[index]?
  | _ => none

/-- The entries of a value that is a mapping. Nothing counts as an empty one. -/
def entries? (document : Document) : Option (List (Datum × Datum)) :=
  match document.root, document.collection? document.root with
  | .null, _ => some []
  | _, some (.map entries) => some entries
  | _, _ => none

end Document

end XoLang
