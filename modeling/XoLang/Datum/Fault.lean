import XoLang.Datum.Calendar
import XoLang.Text.CodePoint
import XoLang.Text.Integer

/-!
# Faults of values

Why a text of the right form stands for no value, or a value has no text. Such a fault stops
loading; a text that breaks a rule of its format does not.
-/

namespace XoLang

/-- Why there is no value, or no text of one. -/
inductive ValueFault where
  /-- A text is no whole number to a base. -/
  | notInteger (base : Nat) (text : CodeText)
  /-- A decimal number has too many digits to be read. -/
  | tooManyDigits (count : Nat)
  /-- A whole number has too many digits to be shown. -/
  | tooLongToShow
  /-- A text is no floating-point number. -/
  | notFloat (text : CodeText)
  /-- A place of a number to the base sixty is beyond the floating-point numbers. -/
  | placeTooLarge
  /-- Nothing is left of a number without underscores and sign. -/
  | emptyNumber
  /-- A word is no truth value. -/
  | notTruth (word : CodeText)
  /-- A text is no date. -/
  | notTimestamp
  /-- A date is written as a mapping. -/
  | timestampMapping
  | calendar (fault : CalendarFault)
  /-- A code is beyond the last character. -/
  | noCharacter
  /-- A code is beyond the numbers that are looked up at all. -/
  | codeTooLarge
  /-- The text of a mapping is that of the mapping itself. -/
  | endlessScalar
  deriving DecidableEq, Repr

namespace ValueFault

/-- The limit for the digits of a number, as messages name it. -/
def limitText : String :=
  "Exceeds the limit (" ++ toString Text.digitLimit ++ " digits) for integer string conversion"

/-- What messages about the limit advise. -/
def limitAdvice : String := "; use sys.set_int_max_str_digits() to increase the limit"

/-- The message of a fault. -/
def message : ValueFault → String
  | .notInteger base text =>
    "invalid literal for int() with base " ++ toString base ++ ": " ++
      String.ofList (text.quotedChars.take 200)
  | .tooManyDigits count =>
    limitText ++ ": value has " ++ toString count ++ " digits" ++ limitAdvice
  | .tooLongToShow => limitText ++ limitAdvice
  | .notFloat text => "could not convert string to float: " ++ text.quoted
  | .placeTooLarge => "int too large to convert to float"
  | .emptyNumber => "string index out of range"
  | .notTruth word => word.quoted
  | .notTimestamp => "'NoneType' object has no attribute 'groupdict'"
  | .timestampMapping => "expected string or bytes-like object, got 'list'"
  | .calendar fault => fault.message
  | .noCharacter => "chr() arg not in range(0x110000)"
  | .codeTooLarge => "Python int too large to convert to C int"
  | .endlessScalar => "maximum recursion depth exceeded"

/-- The fault for a text that is no whole number to a base. -/
def ofInteger (base : Nat) (text : CodeText) : Text.IntegerFault → ValueFault
  | .notInteger => .notInteger base text
  | .tooManyDigits count => .tooManyDigits count

end ValueFault

end XoLang
