import XoLang.Datum.OfJson
import XoLang.Json.Reader
import XoLang.Yaml.Build

/-!
# Readers of settings files

A settings file is written in one of two formats. What reads them is a parameter: a reader turns a
text into a document, or tells why there is none. `Reader.standard` reads both by their rules.
-/

namespace XoLang.Settings

/-- Why a text gives no document. -/
inductive ReadFault where
  /-- The text breaks a rule of its format; the reader says which. -/
  | malformed (reason : String)
  /-- The text stands for no value. -/
  | value (fault : ValueFault)
  deriving DecidableEq, Repr

/-- A way to read the two formats. -/
structure Reader where
  json : String → Except ReadFault Document
  yaml : String → Except ReadFault Document

namespace Reader

/-- Read a text as JSON. -/
def readJson (reason text : String) : Except ReadFault Document :=
  match Json.read text with
  | .ok json => .ok (.ofJson json)
  | .error .malformed => .error (.malformed reason)
  | .error (.tooManyDigits count) => .error (.value (.tooManyDigits count))

/-- Read a text as YAML. -/
def readYaml (order : List Datum → List Datum) (reason text : String) :
    Except ReadFault Document :=
  match Yaml.read order text with
  | .ok document => .ok document
  | .error .malformed => .error (.malformed reason)
  | .error (.value fault) => .error (.value fault)

/-- The reader by the rules of the formats. It puts the members of a set that are not all numbers
into an order, and gives one reason for all texts that break a rule. -/
def standard (order : List Datum → List Datum) (reason : String) : Reader :=
  ⟨readJson reason, readYaml order reason⟩

/-- Read the text of the file with a path: as JSON if the path ends so, and as YAML otherwise. -/
def read (reader : Reader) (path : CodeText) (text : String) : Except ReadFault Document :=
  if (CodeText.ofString ".json").isSuffixOf path then reader.json text else reader.yaml text

end Reader

end XoLang.Settings
