import XoLang.Decimal.Reader
import XoLang.Json.Value
import XoLang.Text.CodePoint

/-!
# Reading JSON

The grammar of the format, with the names `NaN`, `Infinity` and `-Infinity` for the numbers that are
none, and nothing but blanks around the value. The escapes of the two halves of a surrogate pair are
read as one character; a half by itself stays one. Of fields with one name the last value counts, at
the place of the first. A whole number has a greatest count of digits. Each reader takes its value
off the front of the text, so the first fault in the text is the one that is found; the fuel of the
recursive ones bounds the steps and is computed from the length of the text.
-/

namespace XoLang.Json

/-- Why a text is no JSON value. -/
inductive Fault where
  /-- The text breaks a rule of the format. -/
  | malformed
  /-- A whole number has too many digits. -/
  | tooManyDigits (count : Nat)
  deriving DecidableEq, Repr

/-- A value and the rest of the text, or a fault. -/
abbrev Reading := Except Fault (Json CodeText × List Char)

/-- The four blanks of the format. -/
def isSpace (c : Char) : Bool := c = ' ' || c = '\t' || c = '\n' || c = '\r'

/-- Leave out leading blanks. -/
def skipSpace (cs : List Char) : List Char := cs.dropWhile isSpace

/-- Whether a character is a digit of the format. -/
def isDigit (c : Char) : Bool := '0' ≤ c && c ≤ '9'

/-- The character for an escape letter. -/
def escapedChar? (c : Char) : Option Char :=
  if c = '"' || c = '\\' || c = '/' then some c
  else if c = 'n' then some '\n'
  else if c = 'r' then some '\r'
  else if c = 't' then some '\t'
  else if c = 'f' then some (Char.ofNat 0x0c)
  else if c = 'b' then some (Char.ofNat 0x08)
  else none

/-- The code point of four hexadecimal digits. -/
def unit? : List Char → Option (CodePoint × List Char)
  | a :: b :: c :: d :: cs => (Text.hexNumber? 0 [a, b, c, d]).map fun n => (.ofNat n, cs)
  | _ => none

/-- The code point of one or two escapes, of which the first has been read. -/
def joinUnits (first : CodePoint) (cs : List Char) : CodePoint × List Char :=
  match first, cs with
  | .high upper, '\\' :: 'u' :: rest =>
    match unit? rest with
    | some (.low lower, rest) => (.char (CodePoint.pair upper lower), rest)
    | _ => (first, cs)
  | _, _ => (first, cs)

/-- The rest of a text after its opening quote; `done` holds the code points read, last first. -/
def readText (done : CodeText) : Nat → List Char → Option (CodeText × List Char)
  | 0, _ => none
  | fuel + 1, cs =>
    match cs with
    | [] => none
    | '"' :: rest => some (done.reverse, rest)
    | '\\' :: 'u' :: rest =>
      match unit? rest with
      | some (first, rest) =>
        let joined := joinUnits first rest
        readText (joined.1 :: done) fuel joined.2
      | none => none
    | '\\' :: e :: rest =>
      match escapedChar? e with
      | some c => readText (.char c :: done) fuel rest
      | none => none
    | c :: rest =>
      if c.toNat < 0x20 || c = '\\' then none else readText (.char c :: done) fuel rest

/-- The whole part of a number: zero, or digits that do not start with zero. -/
def wholePart : List Char → List Char × List Char
  | '0' :: cs => (['0'], cs)
  | cs => (cs.takeWhile isDigit, cs.dropWhile isDigit)

/-- A point with digits behind it, if there is one. -/
def fractionPart (cs : List Char) : List Char × List Char :=
  match cs with
  | '.' :: rest =>
    let digits := rest.takeWhile isDigit
    if digits.isEmpty then ([], cs) else (digits, rest.dropWhile isDigit)
  | _ => ([], cs)

/-- An exponent with its sign, if there is one. -/
def exponentPart (cs : List Char) : Option Int × List Char :=
  match cs with
  | e :: rest =>
    if e = 'e' || e = 'E' then
      let signed := Decimal.takeSign rest
      let digits := signed.2.takeWhile isDigit
      if digits.isEmpty then (none, cs)
      else
        let n : Int := Text.digitsValue 10 digits
        (some (if signed.1 then -n else n), signed.2.dropWhile isDigit)
    else (none, cs)
  | [] => (none, cs)

/-- An unsigned number; `negative` says whether a minus sign stood in front. -/
def readNumber (negative : Bool) (cs : List Char) : Reading :=
  let whole := wholePart cs
  if whole.1.isEmpty then .error .malformed
  else
    let fraction := fractionPart whole.2
    let exponent := exponentPart fraction.2
    if fraction.1.isEmpty && exponent.1.isNone then
      if Text.digitLimit < whole.1.length then .error (.tooManyDigits whole.1.length)
      else
        let n : Int := Text.digitsValue 10 whole.1
        .ok (.int (if negative then -n else n), whole.2)
    else
      .ok (.float (Decimal.Binary.ofDecimal negative (Text.digitsValue 10 (whole.1 ++ fraction.1))
        (exponent.1.getD 0 - fraction.1.length)), exponent.2)

/-- The named values, with the characters that write them. -/
def namedValues : List (List Char × Json CodeText) :=
  [("null".toList, .null), ("true".toList, .bool true), ("false".toList, .bool false),
   ("NaN".toList, .float .nan), ("Infinity".toList, .float (.infinite false)),
   ("-Infinity".toList, .float (.infinite true))]

/-- A named value or a number. -/
def readAtom (cs : List Char) : Reading :=
  match namedValues.find? fun named => named.1.isPrefixOf cs with
  | some (name, value) => .ok (value, cs.drop name.length)
  | none =>
    match cs with
    | '-' :: rest => readNumber true rest
    | _ => readNumber false cs

mutual

/-- A value, without blanks in front of it. -/
def readValue : Nat → List Char → Reading
  | 0, _ => .error .malformed
  | fuel + 1, cs =>
    match cs with
    | '"' :: rest =>
      match readText [] (rest.length + 1) rest with
      | some (found, rest) => .ok (.text found, rest)
      | none => .error .malformed
    | '[' :: rest =>
      match skipSpace rest with
      | ']' :: rest => .ok (.list [], rest)
      | rest => readItems fuel [] rest
    | '\x7b' :: rest =>
      match skipSpace rest with
      | '\x7d' :: rest => .ok (.object [], rest)
      | rest => readFields fuel [] rest
    | _ => readAtom cs

/-- The items of a list up to its end; `done` holds the items read, last first. -/
def readItems : Nat → List (Json CodeText) → List Char → Reading
  | 0, _, _ => .error .malformed
  | fuel + 1, done, cs =>
    match readValue fuel cs with
    | .error fault => .error fault
    | .ok (item, rest) =>
      match skipSpace rest with
      | ',' :: rest => readItems fuel (item :: done) (skipSpace rest)
      | ']' :: rest => .ok (.list (item :: done).reverse, rest)
      | _ => .error .malformed

/-- The fields of an object up to its end, added to those read before. -/
def readFields : Nat → List (CodeText × Json CodeText) → List Char → Reading
  | 0, _, _ => .error .malformed
  | fuel + 1, done, cs =>
    match cs with
    | '"' :: rest =>
      match readText [] (rest.length + 1) rest with
      | none => .error .malformed
      | some (name, rest) =>
        match skipSpace rest with
        | ':' :: rest =>
          match readValue fuel (skipSpace rest) with
          | .error fault => .error fault
          | .ok (value, rest) =>
            match skipSpace rest with
            | ',' :: rest => readFields fuel (setField name value done) (skipSpace rest)
            | '\x7d' :: rest => .ok (.object (setField name value done), rest)
            | _ => .error .malformed
        | _ => .error .malformed
    | _ => .error .malformed

end

/-- The value that a whole text stands for. -/
def read (text : String) : Except Fault (Json CodeText) :=
  let cs := skipSpace text.toList
  match readValue (2 * cs.length + 2) cs with
  | .ok (value, rest) => if (skipSpace rest).isEmpty then .ok value else .error .malformed
  | .error fault => .error fault

end XoLang.Json
