import XoLang.Datum.Fault
import XoLang.Datum.Key

/-!
# Texts of values

A value has a text, which is the text itself for a text, and a shown form, in which texts are
quoted; collections show their parts. A collection inside of itself is shown by dots. Whole numbers
with too many digits have neither.
-/

namespace XoLang

/-- A whole number, if it is short enough to be shown. -/
def integerText (n : Int) : Except ValueFault String :=
  if n.natAbs < Decimal.tenTo Text.digitLimit then .ok (toString n) else .error .tooLongToShow

namespace Collection

/-- How a collection is shown inside of itself. -/
def dots : Collection → String
  | .list _ => "[...]"
  | .map _ => "\x7b...\x7d"
  | .set _ => "set(...)"
  | .pair _ _ => "(...)"

/-- A collection in its shown form; `shown` gives that of its parts. -/
def shownWith (shown : Datum → Except ValueFault String) : Collection → Except ValueFault String
  | .list items => do
    let parts ← items.mapM shown
    return "[" ++ Text.join ", " parts ++ "]"
  | .map entries => do
    let parts ← entries.mapM fun (key, value) => do
      let name ← shown key
      return name ++ ": " ++ (← shown value)
    return "\x7b" ++ Text.join ", " parts ++ "\x7d"
  | .set [] => return "set()"
  | .set members => do
    let parts ← members.mapM shown
    return "\x7b" ++ Text.join ", " parts ++ "\x7d"
  | .pair first second => do
    let name ← shown first
    return "(" ++ name ++ ", " ++ (← shown second) ++ ")"

/-- Whether a collection holds nothing. -/
def isEmpty : Collection → Bool
  | .list items => items.isEmpty
  | .map entries => entries.isEmpty
  | .set members => members.isEmpty
  | .pair _ _ => false

end Collection

namespace Document

/-- A value in its shown form inside of the collections on `path`. The fuel is more than the count
of collections that are not on the path. -/
def shownInside (document : Document) : Nat → List Nat → Datum → Except ValueFault String
  | 0, _, _ => .ok ""
  | fuel + 1, path, datum =>
    match datum with
    | .null => .ok "None"
    | .bool value => .ok (if value then "True" else "False")
    | .int value => integerText value
    | .float value => .ok value.valueText
    | .nan _ => .ok Decimal.Binary.nan.valueText
    | .text value => .ok value.quoted
    | .bytes value => .ok (Text.quotedBytes value)
    | .day value => .ok value.shown
    | .moment value => .ok value.shown
    | .collection index =>
      match document.collections[index]? with
      | none => .ok ""
      | some collection =>
        if path.contains index then .ok collection.dots
        else collection.shownWith (document.shownInside fuel (index :: path))

/-- A value in its shown form. -/
def shown (document : Document) (datum : Datum) : Except ValueFault String :=
  document.shownInside (document.collections.size + 1) [] datum

/-- The text of a value. -/
def text (document : Document) : Datum → Except ValueFault CodeText
  | .text value => .ok value
  | .day value => .ok (.ofString value.text)
  | .moment value => .ok (.ofString value.text)
  | datum => (document.shown datum).map .ofString

/-- Whether a value counts as true: all do but nothing, false, zero and what is empty. -/
def truth (document : Document) : Datum → Bool
  | .null => false
  | .bool value => value
  | .int value => value ≠ 0
  | .float value => !value.isZero
  | .text value => !value.isEmpty
  | .bytes value => !value.isEmpty
  | .collection index => (document.collections[index]?).any fun found => !found.isEmpty
  | _ => true

end Document

end XoLang
