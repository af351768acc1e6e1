import XoLang.Datum
import XoLang.Json.Value

/-!
# Values of JSON texts

A JSON value as a value of settings: its lists and objects are put into the table of collections,
each behind the ones that it holds.
-/

namespace XoLang.Document

/-- Add a collection to a table: the value that names it, and the table. -/
def addCollection (collection : Collection) (table : Array Collection) :
    Datum × Array Collection :=
  (.collection table.size, table.push collection)

mutual

/-- The value that a JSON value stands for, and the table with its collections. -/
def addJson : Json CodeText → Array Collection → Datum × Array Collection
  | .null, table => (.null, table)
  | .bool value, table => (.bool value, table)
  | .int value, table => (.int value, table)
  | .float value, table => (.ofBinary 0 value, table)
  | .text value, table => (.text value, table)
  | .list items, table =>
    let (items, table) := addItems items table
    addCollection (.list items) table
  | .object fields, table =>
    let (entries, table) := addFields fields table
    addCollection (.map entries) table
termination_by structural json => json

/-- The values that JSON values stand for. -/
def addItems : List (Json CodeText) → Array Collection → List Datum × Array Collection
  | [], table => ([], table)
  | item :: items, table =>
    let (first, table) := addJson item table
    let (rest, table) := addItems items table
    (first :: rest, table)
termination_by structural items => items

/-- The entries that JSON fields stand for. -/
def addFields : List (CodeText × Json CodeText) → Array Collection →
    List (Datum × Datum) × Array Collection
  | [], table => ([], table)
  | (name, value) :: fields, table =>
    let (value, table) := addJson value table
    let (rest, table) := addFields fields table
    ((.text name, value) :: rest, table)
termination_by structural fields => fields

end

/-- The value that a JSON value stands for. -/
def ofJson (json : Json CodeText) : Document :=
  let (root, collections) := addJson json #[]
  ⟨root, collections⟩

end XoLang.Document
