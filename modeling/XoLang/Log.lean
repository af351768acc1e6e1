import XoLang.Text.Lines

/-!
# Log records

What a run tells about itself, apart from its results. Records below a level are not shown.
-/

namespace XoLang

/-- How much a record matters. -/
inductive LogLevel where
  | debug
  | info
  | warning
  deriving DecidableEq, Repr

/-- The name of a level in texts. -/
def LogLevel.name : LogLevel → String
  | .debug => "DEBUG"
  | .info => "INFO"
  | .warning => "WARNING"

/-- The rank of a level. -/
def LogLevel.rank : LogLevel → Nat
  | .debug => 0
  | .info => 1
  | .warning => 2

/-- A record. -/
structure LogRecord where
  level : LogLevel
  source : String
  message : String
  deriving DecidableEq, Repr

/-- A record on a line. -/
def LogRecord.text (r : LogRecord) : String := r.level.name ++ " " ++ r.source ++ ": " ++ r.message

/-- The least level that is shown when more is asked for `verbosity` times. -/
def shownLevel (verbosity : Nat) : LogLevel :=
  if verbosity = 0 then .warning else if verbosity = 1 then .info else .debug

/-- The records that are shown, one a line. -/
def logText (verbosity : Nat) (records : List LogRecord) : String :=
  String.join ((records.filter fun r => (shownLevel verbosity).rank ≤ r.level.rank).map
    fun r => r.text ++ "\n")

end XoLang
