import XoLang.Datum
import XoLang.Datum.Fault
import XoLang.Decimal.Reader

/-!
# Dates in YAML

A date is written with hyphens; a time with parts of a second and a distance from universal time
may follow. A line end may stand behind it. A date that does not exist is a fault.
-/

namespace XoLang.Yaml

/-- A text without the line end that may stand at its end. -/
def withoutLineEnd (cs : List Char) : List Char :=
  if cs.getLast? = some '\n' then cs.dropLast else cs

/-- The parts of a date, and of a time if there is one. -/
structure Stamp where
  year : Nat
  month : Nat
  day : Nat
  time : Option (Nat × Nat × Nat)
  /-- The digits of the parts of a second. -/
  fraction : List Char
  /-- The distance from universal time: its sign, hours and minutes. -/
  zone : Option (Bool × Nat × Nat)
  deriving Repr

/-- The number of a run of digits of an allowed length, and the rest. -/
def digitsOf (least most : Nat) (cs : List Char) : Option (Nat × List Char) :=
  let run := (cs.take most).takeWhile Char.isDigit
  if run.length < least then none
  else some (Text.digitsValue 10 run, cs.drop run.length)

/-- What follows a given character. -/
def after? (c : Char) : List Char → Option (List Char)
  | d :: cs => if d = c then some cs else none
  | [] => none

/-- The zone at the end of a time. -/
def zone? (cs : List Char) : Option (Option (Bool × Nat × Nat)) :=
  match cs.dropWhile (fun c => c = ' ' || c = '\t') with
  | [] => if cs.isEmpty then some none else none
  | ['Z'] => some (some (false, 0, 0))
  | s :: rest =>
    if s = '+' || s = '-' then do
      let (hours, rest) ← digitsOf 1 2 rest
      if rest.isEmpty then some (some (s = '-', hours, 0))
      else do
        let (minutes, rest) ← digitsOf 2 2 (← after? ':' rest)
        if rest.isEmpty then some (some (s = '-', hours, minutes)) else none
    else none

/-- The gap between a date and a time. -/
def timeGap? : List Char → Option (List Char)
  | [] => none
  | c :: cs =>
    if c = 'T' || c = 't' then some cs
    else if c = ' ' || c = '\t' then some (cs.dropWhile fun c => c = ' ' || c = '\t')
    else none

/-- A date, or a date with a time. -/
def stamp? (cs : List Char) : Option Stamp := do
  let (year, rest) ← digitsOf 4 4 cs
  let monthText ← after? '-' rest
  let (month, rest) ← digitsOf 1 2 monthText
  let dayText ← after? '-' rest
  let (day, rest) ← digitsOf 1 2 dayText
  if rest.isEmpty then some ⟨year, month, day, none, [], none⟩
  else do
    let (hour, rest) ← digitsOf 1 2 (← timeGap? rest)
    let (minute, rest) ← digitsOf 2 2 (← after? ':' rest)
    let (second, rest) ← digitsOf 2 2 (← after? ':' rest)
    let (fraction, rest) := Decimal.fractionOf rest
    let zone ← zone? rest
    some ⟨year, month, day, some (hour, minute, second), fraction, zone⟩

/-- Whether a text has the form of a date: two digits for month and day, or a time behind them. -/
def isTimestampForm (cs : List Char) : Bool :=
  match stamp? cs with
  | some s => s.time.isSome || cs.length = 10
  | none => false

/-- The first six digits of the parts of a second, as a number of microseconds. -/
def microseconds (digits : List Char) : Nat :=
  let shown := digits.take 6
  Text.digitsValue 10 shown * Decimal.tenTo (6 - shown.length)

/-- A distance from universal time of less than a day. -/
def offsetOf : Option (Bool × Nat × Nat) → Except CalendarFault (Option Int)
  | none => .ok none
  | some (negative, hours, minutes) =>
    let size : Int := 60 * hours + minutes
    let offset := if negative then -size else size
    if 1440 ≤ size then .error (.offset offset) else .ok (some offset)

/-- The day or the moment that a date stands for. -/
def Stamp.datum (s : Stamp) : Except CalendarFault Datum :=
  match s.time with
  | none => (Day.make s.year s.month s.day).map Datum.day
  | some (hour, minute, second) => do
    let offset ← offsetOf s.zone
    let day ← Day.make s.year s.month s.day
    (Moment.make day hour minute second (microseconds s.fraction) offset).map Datum.moment

/-- The day or the moment that a text stands for. -/
def timestamp (text : CodeText) : Except ValueFault Datum :=
  match text.chars?.bind fun cs => stamp? (withoutLineEnd cs) with
  | none => .error .notTimestamp
  | some s => s.datum.mapError ValueFault.calendar

end XoLang.Yaml
