import XoLang.Json.Writer
import XoLang.Location

/-!
# Diagnostics

What is reported about a source or a tree: a kind, a message, a place if there is one, and
details for tools.
-/

namespace XoLang

/-- Where in the compiler a diagnostic comes from. -/
inductive DiagnosticKind where
  | lexical
  | syntactic
  | internal
  deriving DecidableEq, Repr

/-- The name of a kind in texts. -/
def DiagnosticKind.name : DiagnosticKind → String
  | .lexical => "lex_error"
  | .syntactic => "parse_error"
  | .internal => "internal_error"

/-- The kind of that name. -/
def DiagnosticKind.ofName? (name : String) : Option DiagnosticKind :=
  [DiagnosticKind.lexical, .syntactic, .internal].find? fun kind => kind.name = name

/-- A report. -/
structure Diagnostic where
  kind : DiagnosticKind
  message : String
  location : Option Location
  details : List (String × Json)
  deriving Repr

namespace Diagnostic

/-- A report on the characters of a source; it may name one of them. -/
def lexical (message : String) (location : Option Location) (character : Option String) :
    Diagnostic where
  kind := .lexical
  message := message
  location := location
  details := match character with
    | some c => [("character", .text c)]
    | none => []

/-- A report on the tokens of a source; it may name the kind of one of them. -/
def syntactic (message : String) (location : Option Location) (tokenKind : Option String) :
    Diagnostic where
  kind := .syntactic
  message := message
  location := location
  details := match tokenKind with
    | some kind => [("token_kind", .text kind)]
    | none => []

/-- A diagnostic on one line. -/
def text (d : Diagnostic) : String :=
  "[" ++ d.kind.name ++ "]" ++
    (match d.location with
     | some location => " at " ++ location.text
     | none => "") ++ ": " ++ d.message

/-- The place of a diagnostic as JSON fields. -/
def locationFields (d : Diagnostic) : List (String × Json) :=
  match d.location with
  | some l =>
    [("location", .object [("file", .text l.file), ("line", .int l.line),
      ("column", .int l.column)])]
  | none => []

/-- A diagnostic for tools. The place and the details are left out when there are none. -/
def toJson (d : Diagnostic) : Json :=
  .object ([("kind", .text d.kind.name), ("message", .text d.message)] ++ d.locationFields ++
    (if d.details.isEmpty then [] else [("details", .object d.details)]))

/-- Diagnostics, one a line. -/
def texts (ds : List Diagnostic) : String := Text.join "\n" (ds.map text)

/-- Diagnostics as one JSON list. -/
def listJson (ds : List Diagnostic) : Json := .list (ds.map toJson)

end Diagnostic

end XoLang
