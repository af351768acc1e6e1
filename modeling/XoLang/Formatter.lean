import XoLang.Decimal.Notation
import XoLang.Text.CodePoint

/-!
# The external formatter

Generated code goes through a command that reads it and writes it reformatted. How a command is
run is a parameter: a runner gets the words of the command and the input and tells what became of
it.
-/

namespace XoLang.Formatter

/-- What became of a command. -/
inductive RunResult where
  | notFound
  | timedOut
  /-- Running the command failed in any other way. -/
  | raised (failure : String)
  | exited (status : Int) (output errors : String)
  deriving DecidableEq, Repr

/-- The start of a command. -/
structure Invocation where
  command : List CodeText
  input : String
  deriving DecidableEq, Repr

/-- A way to run commands. -/
abbrev Runner := Invocation → RunResult

/-- Why a text was not reformatted. -/
inductive Fault where
  | noParser (language : String)
  | notFound (command : List CodeText)
  | timedOut (command : List CodeText) (duration : Decimal.Binary)
  | exited (command : List CodeText) (status : Int) (errors : String)
  /-- A failure that is not about formatting. -/
  | raised (failure : String)
  deriving DecidableEq, Repr

namespace Fault

/-- The message of a fault. -/
def message : Fault → String
  | .noParser language => "No formatter parser for language '" ++ language ++ "'"
  | .notFound command => "Formatter not found: " ++ (command.headD []).text
  | .timedOut _ duration => "Formatter timed out after " ++ duration.durationText ++ "s"
  | .exited _ status _ => "Formatter exited with status " ++ toString status
  | .raised failure => failure

/-- The command that was run. -/
def command : Fault → List CodeText
  | .noParser _ => []
  | .notFound command => command
  | .timedOut command _ => command
  | .exited command _ _ => command
  | .raised _ => []

/-- What the command wrote about its failure. -/
def errors : Fault → String
  | .exited _ _ errors => errors
  | _ => ""

end Fault

/-- The command when none is set. -/
def defaultCommand : List CodeText := ["prettier"]

/-- The name that the command knows a language by. -/
def parserFor? (language : String) : Option String :=
  if language = "javascript" then some "babel"
  else if language = "typescript" then some "typescript"
  else none

/-- The words that start the formatter. -/
def commandLine (command : List CodeText) (parser : String) : List CodeText :=
  (if command.isEmpty then defaultCommand else command) ++ [.ofString "--parser", .ofString parser]

/-- How long the formatter may take when nothing else is said, in seconds. -/
def defaultDuration : Decimal.Binary := Decimal.Binary.ofInt 30

/-- What formatting gave, and the command that was started, if any was. -/
structure Formatted where
  result : Except Fault String
  started : Option Invocation

/-- Judge what became of a command. -/
def judge (command : List CodeText) (duration : Decimal.Binary) : RunResult → Except Fault String
  | .notFound => .error (.notFound command)
  | .timedOut => .error (.timedOut command duration)
  | .raised failure => .error (.raised failure)
  | .exited status output errors =>
    if status = 0 then .ok output else .error (.exited command status errors)

/-- Reformat a text. -/
def format (runner : Runner) (language : String) (command : List CodeText)
    (duration : Decimal.Binary) (text : String) : Formatted :=
  match parserFor? language with
  | none => ⟨.error (.noParser language), none⟩
  | some parser =>
    let invocation : Invocation := ⟨commandLine command parser, text⟩
    ⟨judge invocation.command duration (runner invocation), some invocation⟩

end XoLang.Formatter
