import XoLang.Log
import XoLang.Settings
import XoLang.Settings.Reader
import XoLang.Settings.Search

/-!
# Loading settings

A settings file that cannot be opened, that its reader finds malformed or that holds no mapping
gives the default settings and a warning.
-/

namespace XoLang

/-- The text of a file, with every line end as a line feed. -/
def fileText? (content : ByteArray) : Option String :=
  (String.fromUTF8? content).map fun text => String.ofList (Text.unifyNewlines text.toList)

namespace Settings

/-- What stops loading. -/
inductive LoadFault where
  /-- The path holds a null character. -/
  | nullCharacter
  /-- A code point of the path has no bytes. -/
  | noBytes
  /-- The file is no text. -/
  | notText
  /-- A text stands for no value, or a value has no text. -/
  | value (fault : ValueFault)
  deriving DecidableEq, Repr

/-- Settings or a fault, and what was told on the way. -/
structure Loaded where
  result : Except LoadFault Settings
  log : List LogRecord

/-- A record about settings. -/
def record (level : LogLevel) (message : String) : LogRecord := ⟨level, "xo.config", message⟩

/-- The default settings with a warning. -/
def Loaded.fallback (message : String) : Loaded := ⟨.ok default, [record .warning message]⟩

/-- The settings of a file with a text. -/
def ofText (reader : Reader) (path : CodeText) (text : String) : Loaded :=
  match reader.read path text with
  | .error (.malformed reason) =>
    .fallback ("ignoring malformed config " ++ path.text ++ ": " ++ reason)
  | .error (.value fault) => ⟨.error (.value fault), []⟩
  | .ok document =>
    match document.entries? with
    | some entries =>
      ⟨(ofEntries document entries).mapError LoadFault.value,
        [record .debug ("loaded config from " ++ path.text)]⟩
    | none => .fallback ("ignoring config " ++ path.text ++ ": top level is not a mapping")

/-- The settings of the file that a path leads to. -/
def ofFile (reader : Reader) (disk : Disk) (cwd : List CodeText) (path : CodeText) : Loaded :=
  match disk.read cwd path with
  | .error .nullCharacter => ⟨.error .nullCharacter, []⟩
  | .error .noBytes => ⟨.error .noBytes, []⟩
  | .error fault =>
    .fallback ("could not read config " ++ path.text ++ ": " ++ fault.message path)
  | .ok content =>
    match fileText? content with
    | none => ⟨.error .notText, []⟩
    | some text => ofText reader path text

/-- The settings of the file at a path, or of the nearest one for a folder. -/
def load (reader : Reader) (disk : Disk) (cwd : List CodeText) (path : Option CodeText)
    (folder : CodeText) : Loaded :=
  match path with
  | some path => ofFile reader disk cwd path
  | none =>
    match find? disk cwd folder with
    | some path => ofFile reader disk cwd path
    | none => ⟨.ok default, []⟩

end Settings

end XoLang
