import XoLang.Datum.Shown
import XoLang.Text.Blank
import XoLang.Token.Delimiter

/-!
# Settings

What a project can set: the string delimiter, the build directory, whether and how generated code
is reformatted, and the form of diagnostics. Any value is accepted for a setting and turned into
its type, as long as it has a text; whether the delimiter is one and whether the directory has a
path is checked only where they are used.
-/

namespace XoLang

/-- The settings of a project. -/
structure Settings where
  quote : CodeText
  buildDir : CodeText
  format : Bool
  formatter : List CodeText
  outputFormat : String
  deriving DecidableEq, Repr

namespace Settings

/-- The settings when nothing is set. -/
def default : Settings where
  quote := "'"
  buildDir := "build"
  format := true
  formatter := ["prettier"]
  outputFormat := "pretty"

/-- The words of a formatter command: a text is cut at blanks, of a list each part is taken, and
any other value sets nothing. -/
def formatterWords (document : Document) (value : Datum) :
    Except ValueFault (Option (List CodeText)) :=
  match value, document.collection? value with
  | .text words, _ => .ok (some (Text.words words))
  | _, some (.list items) => (items.mapM document.text).map some
  | _, _ => .ok none

/-- The text of the entry with a name, if there is one. -/
def textEntry (document : Document) (entries : List (Datum × Datum)) (name : String)
    (fallback : CodeText) : Except ValueFault CodeText :=
  match Datum.entry? name entries with
  | some value => document.text value
  | none => .ok fallback

/-- The settings that the entries of a document make; other entries are ignored. -/
def ofEntries (document : Document) (entries : List (Datum × Datum)) :
    Except ValueFault Settings := do
  let quote ← textEntry document entries "quote" default.quote
  let buildDir ← textEntry document entries "build_dir" default.buildDir
  let words ← (Datum.entry? "formatter" entries).elim (.ok none) (formatterWords document)
  let outputFormat ← textEntry document entries "output_format" default.outputFormat
  return {
    quote := quote
    buildDir := buildDir
    format := ((Datum.entry? "format" entries).map document.truth).getD default.format
    formatter := words.getD default.formatter
    outputFormat := outputFormat.text }

/-- The string delimiter that is set. -/
def delimiter (settings : Settings) : Except DelimiterFault Delimiter :=
  Delimiter.ofText settings.quote

end Settings

end XoLang
