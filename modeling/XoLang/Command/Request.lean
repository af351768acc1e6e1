import XoLang.Command.Arguments
import XoLang.Command.Usage
import XoLang.Text.Integer

/-!
# Requests

What a command line asks for: a command with its file and options, a page of help, or the version.
A command line that asks for nothing sensible is refused with a message on the page of the command
it belongs to.
-/

namespace XoLang.Command

open XoLang.Arguments

/-- What is to be done with a source. -/
inductive Action where
  | build (outDir : Option String) (noFormat : Bool)
  | emit (format : Bool)
  | tokens (json : Bool) (maxItems : Int)
  | ast (json : Bool) (maxItems : Int)
  deriving DecidableEq, Repr

/-- A command with its file and options. -/
structure Request where
  file : String
  config : Option Value
  quote : Option Value
  outputFormat : Option String
  action : Action
  deriving DecidableEq, Repr

/-- The path of the settings file that is asked for. -/
def Request.configPath (request : Request) : Option CodeText :=
  (request.config.bind Value.text?).map CodeText.ofString

/-- The options of the program. -/
inductive MainOption where
  | help
  | version
  | verbose
  deriving DecidableEq, Repr

/-- The options of the commands. -/
inductive CommandOption where
  | help
  | config
  | quote
  | outputFormat
  | outDir
  | noFormat
  | format
  | json
  | maxItems
  deriving DecidableEq, Repr

/-- How the options of the program are written. -/
def mainSpecs : List (OptionSpec MainOption) :=
  [⟨.help, ["-h", "--help"], false⟩, ⟨.version, ["--version"], false⟩,
   ⟨.verbose, ["-v", "--verbose"], false⟩]

/-- The names of the commands, each with its page and its action without options. -/
def commands : List (String × Page × Action) :=
  [("build", .build, .build none false), ("emit", .emit, .emit false),
   ("tokens", .tokens, .tokens false 100), ("ast", .ast, .ast false 100)]

/-- How the options that all commands have are written. -/
def commonSpecs : List (OptionSpec CommandOption) :=
  [⟨.help, ["-h", "--help"], false⟩, ⟨.config, ["--config"], true⟩, ⟨.quote, ["--quote"], true⟩,
   ⟨.outputFormat, ["--output-format"], true⟩]

/-- How the options of a command are written. -/
def specs : Action → List (OptionSpec CommandOption)
  | .build _ _ =>
    commonSpecs ++ [⟨.outDir, ["-o", "--out-dir"], true⟩, ⟨.noFormat, ["--no-format"], false⟩]
  | .emit _ => commonSpecs ++ [⟨.format, ["--format"], false⟩]
  | .tokens _ _ =>
    commonSpecs ++ [⟨.json, ["--json"], false⟩, ⟨.maxItems, ["--max-items"], true⟩]
  | .ast _ _ =>
    commonSpecs ++ [⟨.json, ["--json"], false⟩, ⟨.maxItems, ["--max-items"], true⟩]

/-- What a command line asks for. -/
inductive Verdict where
  | help (page : Page)
  | version
  /-- There is no command. -/
  | nothing
  | refused (page : Page) (message : String)
  | run (verbosity : Nat) (request : Request)
  deriving DecidableEq, Repr

/-- The message for a value that is none of several. -/
def invalidChoice (option value : String) (choices : List String) : String :=
  "argument " ++ option ++ ": invalid choice: " ++ Text.quoted value ++ " (choose from " ++
    Text.join ", " (choices.map Text.quoted) ++ ")"

/-- The forms of diagnostics that can be asked for. -/
def outputFormats : List String := ["pretty", "json"]

/-- A request with a limit for dumps. -/
def Action.limit (maxItems : Int) : Action → Action
  | .tokens json _ => .tokens json maxItems
  | .ast json _ => .ast json maxItems
  | action => action

/-- A request for dumps as JSON. -/
def Action.asJson : Action → Action
  | .tokens _ maxItems => .tokens true maxItems
  | .ast _ maxItems => .ast true maxItems
  | action => action

/-- A request for a build directory, or for the one of the settings. -/
def Action.into (outDir : Option String) : Action → Action
  | .build _ noFormat => .build outDir noFormat
  | action => action

/-- A build that is not reformatted. -/
def Action.unformatted : Action → Action
  | .build outDir _ => .build outDir true
  | action => action

/-- An output that is reformatted. -/
def Action.formatted : Action → Action
  | .emit _ => .emit true
  | action => action

/-- A request of which the file may not be known yet. -/
structure Draft where
  file : Option String
  request : Request

/-- The form of diagnostics that a value asks for; no value leaves it to the settings. -/
def outputFormatOf (page : Page) : Value → Except Verdict (Option String)
  | .nothing => .ok none
  | .text value =>
    if outputFormats.contains value then .ok (some value)
    else .error (.refused page (invalidChoice "--output-format" value outputFormats))

/-- The limit that a value asks for; no value is no limit. -/
def maxItemsOf (page : Page) : Value → Except Verdict Int
  | .nothing => .ok 0
  | .text value =>
    match Text.readInteger 10 value.toList with
    | .ok n => .ok n
    | .error _ =>
      .error (.refused page
        ("argument --max-items: invalid int value: " ++ Text.quoted value))

/-- Set an option. -/
def Request.set (page : Page) (request : Request) (key : CommandOption) (value : Value) :
    Except Verdict Request :=
  match key with
  | .help => .error (.help page)
  | .config => .ok { request with config := some value }
  | .quote => .ok { request with quote := some value }
  | .outputFormat =>
    (outputFormatOf page value).map fun format => { request with outputFormat := format }
  | .outDir => .ok { request with action := request.action.into value.text? }
  | .noFormat => .ok { request with action := request.action.unformatted }
  | .format => .ok { request with action := request.action.formatted }
  | .json => .ok { request with action := request.action.asJson }
  | .maxItems =>
    (maxItemsOf page value).map fun n => { request with action := request.action.limit n }

/-- Take the pieces of a command into a draft. -/
def Draft.take (page : Page) (draft : Draft) : List (Piece CommandOption) → Except Verdict Draft
  | [] => .ok draft
  | .positional arguments :: rest =>
    Draft.take page { draft with file := (arguments.erase "--").head? } rest
  | .option key value :: rest =>
    match draft.request.set page key value with
    | .error verdict => .error verdict
    | .ok request => Draft.take page { draft with request := request } rest

/-- Read the arguments of a command: the request and the arguments left over. -/
def readCommand (page : Page) (action : Action) (arguments : List String) :
    Except Verdict (Request × List String) :=
  let found := parse (specs action) .single arguments
  match Draft.take page ⟨none, ⟨"", none, none, none, action⟩⟩ found.pieces with
  | .error verdict => .error verdict
  | .ok draft =>
    match found.fault, draft.file with
    | some fault, _ => .error (.refused page fault.message)
    | none, none => .error (.refused page "the following arguments are required: file")
    | none, some file => .ok ({ draft.request with file := file }, found.extras)

/-- What is known while the arguments of the program are read. -/
structure MainDraft where
  verbosity : Nat
  request : Option Request
  /-- Arguments of the command that are left over. -/
  extras : List String

/-- Choose a command and read its arguments. -/
def chooseCommand : List String → Except Verdict (Request × List String)
  | [] => .error .nothing
  | name :: arguments =>
    match commands.lookup name with
    | some (page, action) => readCommand page action arguments
    | none =>
      .error (.refused .main (invalidChoice "command" name (commands.map (·.1))))

/-- Take the pieces of the program's arguments into a draft. -/
def MainDraft.take (draft : MainDraft) : List (Piece MainOption) → Except Verdict MainDraft
  | [] => .ok draft
  | .option .help _ :: _ => .error (.help .main)
  | .option .version _ :: _ => .error .version
  | .option .verbose _ :: rest =>
    MainDraft.take { draft with verbosity := draft.verbosity + 1 } rest
  | .positional arguments :: rest =>
    match chooseCommand arguments with
    | .error verdict => .error verdict
    | .ok (request, extras) =>
      MainDraft.take { draft with request := some request, extras := extras } rest

/-- What a command line asks for. -/
def readArguments (arguments : List String) : Verdict :=
  let found := parse mainSpecs .remainder arguments
  match MainDraft.take ⟨0, none, []⟩ found.pieces with
  | .error verdict => verdict
  | .ok draft =>
    match found.fault, found.extras ++ draft.extras, draft.request with
    | some fault, _, _ => .refused .main fault.message
    | none, extra :: extras, _ =>
      .refused .main ("unrecognized arguments: " ++ Text.join " " (extra :: extras))
    | none, [], none => .nothing
    | none, [], some request => .run draft.verbosity request

end XoLang.Command
