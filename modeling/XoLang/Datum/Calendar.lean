import XoLang.Decimal.Notation

/-!
# Days and moments

Days of the Gregorian calendar, and times of a day with or without a distance from universal time.
Both have a text and a shown form. Two moments whose distances are known are the same instant if
they are the same moment in universal time.
-/

namespace XoLang

/-- A day. -/
structure Day where
  year : Nat
  month : Nat
  day : Nat
  deriving DecidableEq, Repr, Inhabited

/-- A time of a day, with the distance from universal time in minutes if it is known. -/
structure Moment where
  day : Day
  hour : Nat
  minute : Nat
  second : Nat
  microsecond : Nat
  offset : Option Int
  deriving DecidableEq, Repr, Inhabited

/-- Why numbers are no day or no time of a day. -/
inductive CalendarFault where
  | year
  | month
  | day
  | hour
  | minute
  | second
  /-- The distance from universal time, in minutes, is a day or more. -/
  | offset (minutes : Int)
  deriving DecidableEq, Repr

/-- A number with zeros in front up to a width. -/
def zeroPadded (width n : Nat) : String :=
  Decimal.zeros (width - Decimal.digitCount n) ++ Decimal.digitText n

namespace Day

/-- Whether a year has a leap day. -/
def isLeap (year : Nat) : Bool := year % 4 = 0 && (year % 100 ≠ 0 || year % 400 = 0)

/-- How many days a month has. -/
def monthDays (year month : Nat) : Nat :=
  if month = 2 then (if isLeap year then 29 else 28)
  else if [4, 6, 9, 11].contains month then 30
  else 31

/-- The day with a year, a month and a day, if it exists. -/
def make (year month day : Nat) : Except CalendarFault Day :=
  if year = 0 then .error .year
  else if month = 0 || 12 < month then .error .month
  else if day = 0 || monthDays year month < day then .error .day
  else .ok ⟨year, month, day⟩

/-- How many days there are up to a day, from the first day of the year 1 on. -/
def number (d : Day) : Nat :=
  let years := d.year - 1
  let before := (List.range (d.month - 1)).foldl (fun n month => n + monthDays d.year (month + 1)) 0
  365 * years + years / 4 - years / 100 + years / 400 + before + d.day

/-- Year, month and day with hyphens between them. -/
def text (d : Day) : String :=
  zeroPadded 4 d.year ++ "-" ++ zeroPadded 2 d.month ++ "-" ++ zeroPadded 2 d.day

/-- The numbers of a day in its shown form. -/
def parts (d : Day) : List String := [toString d.year, toString d.month, toString d.day]

/-- A day in its shown form. -/
def shown (d : Day) : String := "datetime.date(" ++ Text.join ", " d.parts ++ ")"

end Day

namespace Moment

/-- The time of a day with an hour, a minute and a second, if it exists. -/
def make (day : Day) (hour minute second microsecond : Nat) (offset : Option Int) :
    Except CalendarFault Moment :=
  if 23 < hour then .error .hour
  else if 59 < minute then .error .minute
  else if 59 < second then .error .second
  else .ok ⟨day, hour, minute, second, microsecond, offset⟩

/-- The microseconds up to a moment whose distance from universal time is `offset` minutes. -/
def instant (m : Moment) (offset : Int) : Int :=
  let minutes : Int := 1440 * m.day.number + 60 * m.hour + m.minute - offset
  (60 * minutes + m.second) * 1000000 + m.microsecond

/-- Whether two moments are the same: as instants if both distances from universal time are known,
as times of a day if neither is. -/
def same (m n : Moment) : Bool :=
  match m.offset, n.offset with
  | some a, some b => m.instant a = n.instant b
  | none, none => m = n
  | _, _ => false

/-- A distance from universal time with its sign. -/
def offsetText (minutes : Int) : String :=
  (if minutes < 0 then "-" else "+") ++ zeroPadded 2 (minutes.natAbs / 60) ++ ":" ++
    zeroPadded 2 (minutes.natAbs % 60)

/-- A moment with a blank between day and time. -/
def text (m : Moment) : String :=
  m.day.text ++ " " ++ zeroPadded 2 m.hour ++ ":" ++ zeroPadded 2 m.minute ++ ":" ++
    zeroPadded 2 m.second ++
    (if m.microsecond = 0 then "" else "." ++ zeroPadded 6 m.microsecond) ++
    (match m.offset with
     | some minutes => offsetText minutes
     | none => "")

/-- A span of minutes in its shown form: whole days, which may be negative, and seconds. -/
def spanShown (minutes : Int) : String :=
  let size := 60 * minutes
  let days := size / 86400
  let seconds := size % 86400
  "datetime.timedelta(" ++
    Text.join ", " ((if days = 0 then [] else ["days=" ++ toString days]) ++
      (if seconds = 0 then [] else ["seconds=" ++ toString seconds])) ++ ")"

/-- A distance from universal time in its shown form. -/
def offsetShown (minutes : Int) : String :=
  if minutes = 0 then "datetime.timezone.utc"
  else "datetime.timezone(" ++ spanShown minutes ++ ")"

/-- A moment in its shown form. Seconds and parts of them are left out when they are zero. -/
def shown (m : Moment) : String :=
  "datetime.datetime(" ++ Text.join ", "
    (m.day.parts ++ [toString m.hour, toString m.minute] ++
      (if m.second = 0 ∧ m.microsecond = 0 then [] else [toString m.second]) ++
      (if m.microsecond = 0 then [] else [toString m.microsecond]) ++
      (match m.offset with
       | some minutes => ["tzinfo=" ++ offsetShown minutes]
       | none => [])) ++ ")"

end Moment

/-- The message for numbers that are no day or no time of a day. -/
def CalendarFault.message : CalendarFault → String
  | .year => "year 0 is out of range"
  | .month => "month must be in 1..12"
  | .day => "day is out of range for month"
  | .hour => "hour must be in 0..23"
  | .minute => "minute must be in 0..59"
  | .second => "second must be in 0..59"
  | .offset minutes =>
    "offset must be a timedelta strictly between -timedelta(hours=24) and " ++
      "timedelta(hours=24), not " ++ Moment.spanShown minutes ++ "."

end XoLang
