import XoLang.Yaml.Timestamp

/-!
# Tags

A tag says what a node means. A plain scalar without a tag has the tag of the first form that it
matches: a truth value, a number, the merge key, nothing, a date; any other is a text. A line end
behind a form is not counted.
-/

namespace XoLang.Yaml

/-- The meaning of a node. -/
inductive Tag where
  | text
  | null
  | bool
  | int
  | float
  | binary
  | timestamp
  | merge
  | value
  | sequence
  | mapping
  | set
  /-- A sequence of mappings of one pair, read as pairs. -/
  | pairs
  | other (name : String)
  deriving DecidableEq, Repr

/-- The tag with a full name. -/
def Tag.ofName (name : String) : Tag :=
  let known : List (String × Tag) :=
    [("str", .text), ("null", .null), ("bool", .bool), ("int", .int), ("float", .float),
     ("binary", .binary), ("timestamp", .timestamp), ("merge", .merge), ("value", .value),
     ("seq", .sequence), ("map", .mapping), ("set", .set), ("omap", .pairs), ("pairs", .pairs)]
  match known.find? fun entry => "tag:yaml.org,2002:" ++ entry.1 = name with
  | some entry => entry.2
  | none => .other name

/-! ## Forms of plain scalars -/

/-- The words for truth values. -/
def boolWords : List String :=
  ["yes", "Yes", "YES", "no", "No", "NO", "true", "True", "TRUE", "false", "False", "FALSE",
   "on", "On", "ON", "off", "Off", "OFF"]

/-- The words for nothing. -/
def nullWords : List String := ["~", "null", "Null", "NULL", ""]

/-- A digit or an underscore. -/
def isDigitOr_ (c : Char) : Bool := c.isDigit || c = '_'

/-- Whether a text is not empty and has only characters of a class. -/
def allOf (class? : Char → Bool) (cs : List Char) : Bool := !cs.isEmpty && cs.all class?

/-- A number below sixty of one or two digits. -/
def isSixtieth : List Char → Bool
  | [a] => a.isDigit
  | [a, b] => '0' ≤ a && a ≤ '5' && b.isDigit
  | _ => false

/-- Whether a text is a digit, or a digit that is not zero, with digits and underscores after. -/
def isDigits (zero : Bool) : List Char → Bool
  | [] => false
  | c :: cs => c.isDigit && (zero || c ≠ '0') && cs.all isDigitOr_

/-- Whether a text is a number to the base sixty; `zero` allows a leading zero. -/
def isSexagesimal (zero : Bool) (cs : List Char) : Bool :=
  match Text.pieces ':' cs with
  | first :: second :: rest => isDigits zero first && (second :: rest).all isSixtieth
  | _ => false

/-- Whether a text has the form of a whole number. -/
def isIntForm (cs : List Char) : Bool :=
  match (Decimal.takeSign cs).2 with
  | ['0'] => true
  | '0' :: 'b' :: rest => allOf (fun c => c = '0' || c = '1' || c = '_') rest
  | '0' :: 'x' :: rest =>
    allOf (fun c => c.isDigit || ('a' ≤ c && c ≤ 'f') || ('A' ≤ c && c ≤ 'F') || c = '_') rest
  | '0' :: rest => allOf (fun c => ('0' ≤ c && c ≤ '7') || c = '_') rest
  | rest => isDigits false rest || isSexagesimal false rest

/-- Whether a text is empty or an exponent, which has a sign. -/
def isExponent : List Char → Bool
  | [] => true
  | e :: s :: digits => (e = 'e' || e = 'E') && (s = '-' || s = '+') && allOf Char.isDigit digits
  | _ => false

/-- Whether a text is a fraction after its point: digits and underscores, and an exponent. -/
def isFraction (cs : List Char) : Bool := isExponent (cs.dropWhile isDigitOr_)

/-- The text before the first point and the text after it. -/
def splitPoint? (cs : List Char) : Option (List Char × List Char) :=
  match cs.dropWhile (· ≠ '.') with
  | _ :: after => some (cs.takeWhile (· ≠ '.'), after)
  | [] => none

/-- Whether a text has the form of a floating-point number. -/
def isFloatForm (cs : List Char) : Bool :=
  let body := (Decimal.takeSign cs).2
  let infinite := [".inf", ".Inf", ".INF"].contains (String.ofList body)
  let nan := [".nan", ".NaN", ".NAN"].contains (String.ofList cs)
  infinite || nan ||
    (match splitPoint? body with
     | none => false
     | some ([], after) => cs.head? = some '.' && after.head?.any Char.isDigit && isFraction after
     | some (before, after) =>
       (isDigits true before && isFraction after) ||
         (isSexagesimal true before && after.all isDigitOr_))

/-- The indicators that can be told from texts only by their tag, which has no values. -/
def indicatorWords : List String := ["!", "&", "*"]

/-- The tag of a text of characters by its form. A lone line end has no form. -/
def Tag.ofForm (text : List Char) : Tag :=
  let cs := withoutLineEnd text
  let word := String.ofList cs
  if cs.isEmpty && !text.isEmpty then .text
  else if boolWords.contains word then .bool
  else if isFloatForm cs then .float
  else if isIntForm cs then .int
  else if word = "<<" then .merge
  else if nullWords.contains word then .null
  else if isTimestampForm cs then .timestamp
  else if word = "=" then .value
  else if indicatorWords.contains word then .ofName "tag:yaml.org,2002:yaml"
  else .text

/-- The tag of a text that stands for what its form says. Halves of pairs have no form. -/
def Tag.ofPlain (text : CodeText) : Tag := (text.chars?.map Tag.ofForm).getD .text

/-- The tag of a scalar: the given one, or the one of its form if it is plain. -/
def Tag.ofScalar (name : Option String) (plain : Bool) (text : CodeText) : Tag :=
  match name with
  | none => if plain then .ofPlain text else .text
  | some "!" => .ofPlain text
  | some name => .ofName name

/-- The tag of a collection: the given one, or that of its kind. -/
def Tag.ofCollection (name : Option String) (kind : Tag) : Tag :=
  match name with
  | none => kind
  | some "!" => kind
  | some name => .ofName name

end XoLang.Yaml
