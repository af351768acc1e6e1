import XoLang.Decimal.Binary

/-!
# JSON values

A number without a fraction and an exponent is a whole number of any size; any other is a binary
floating-point number. The fields of an object keep their order. Texts are strings, unless another
type is given for them: what has been read may hold halves of surrogate pairs.
-/

namespace XoLang

/-- A JSON value with texts of type `τ`. -/
inductive Json (τ : Type := String) where
  | null
  | bool (value : Bool)
  | int (value : Int)
  | float (value : Decimal.Binary)
  | text (value : τ)
  | list (items : List (Json τ))
  | object (fields : List (τ × Json τ))
  deriving Repr, Inhabited

namespace Json

/-- Set a field: a name that is there keeps its place, a new one comes last. -/
def setField [DecidableEq τ] (name : τ) (value : Json τ) : List (τ × Json τ) → List (τ × Json τ)
  | [] => [(name, value)]
  | field :: rest =>
    if field.1 = name then (name, value) :: rest else field :: setField name value rest

/-- The field of that name, if the value is an object that has one. -/
def field? (name : String) : Json → Option Json
  | .object fields => fields.lookup name
  | _ => none

mutual

/-- A value with every text changed. -/
def map (f : σ → τ) : Json σ → Json τ
  | .null => .null
  | .bool value => .bool value
  | .int value => .int value
  | .float value => .float value
  | .text value => .text (f value)
  | .list items => .list (mapItems f items)
  | .object fields => .object (mapFields f fields)
termination_by structural value => value

/-- Values with every text changed. -/
def mapItems (f : σ → τ) : List (Json σ) → List (Json τ)
  | [] => []
  | item :: items => map f item :: mapItems f items
termination_by structural items => items

/-- Fields with every text changed. -/
def mapFields (f : σ → τ) : List (σ × Json σ) → List (τ × Json τ)
  | [] => []
  | (name, value) :: fields => (f name, map f value) :: mapFields f fields
termination_by structural fields => fields

end

end Json

end XoLang
