import XoLang.Command.Request
import XoLang.Dump
import XoLang.Formatter
import XoLang.Settings.Load

/-!
# Running commands

A run is a function of the command line, the disk, the terminal, the runner of the formatter and the
reader of settings files.
It gives the exit status or the fault that stopped it, what it wrote, what it started and the disk
after it. A build clears its directory only after the source has been compiled and reformatted.
-/

namespace XoLang.Command

/-- What a run finds. -/
structure World where
  disk : Disk
  cwd : List CodeText
  /-- Whether the terminal shows colour. -/
  colour : Bool
  runner : Formatter.Runner
  reader : Settings.Reader

/-- What stops a run without an exit status. -/
inductive Fault where
  | disk (fault : DiskFault)
  /-- A file is no text. -/
  | notText
  /-- A value in the settings has a fault. -/
  | value (fault : ValueFault)
  /-- The option for the settings file has no value. -/
  | noSettingsPath
  /-- Running the formatter failed. -/
  | formatter (failure : String)
  /-- The tree has a node without a rendering. -/
  | unsupported (kind : String)
  deriving DecidableEq, Repr

/-- The end of a run. -/
inductive Ending where
  | exit (status : Nat)
  | fault (fault : Fault)
  deriving DecidableEq, Repr

/-- What a run leaves. -/
structure Result where
  ending : Ending
  stdout : String
  stderr : String
  started : List Formatter.Invocation
  disk : Disk

/-- The trace of a run: what it logged and what it started. -/
structure Trace where
  log : List LogRecord
  started : List Formatter.Invocation

/-- Nothing logged, nothing started. -/
def Trace.empty : Trace := ⟨[], []⟩

/-- A trace with one more record. -/
def Trace.add (trace : Trace) (level : LogLevel) (source message : String) : Trace :=
  { trace with log := trace.log ++ [⟨level, source, message⟩] }

/-- The end of a run that leaves the disk as it was, with a text on the standard output or one
behind the log. -/
structure Report where
  ending : Ending
  stdout : String
  /-- What is written behind the log. -/
  diagnostics : String
  trace : Trace

/-- A report as the result of a run that ended with a disk. -/
def Report.result (report : Report) (verbosity : Nat) (disk : Disk) : Result where
  ending := report.ending
  stdout := report.stdout
  stderr := logText verbosity report.trace.log ++ report.diagnostics
  started := report.trace.started
  disk := disk

/-- A run that was stopped. -/
def Report.stopped (fault : Fault) (trace : Trace) : Report := ⟨.fault fault, "", "", trace⟩

/-- A run that ended with status 0. -/
def Report.done (stdout : String) (trace : Trace) : Report := ⟨.exit 0, stdout, "", trace⟩

/-- A refusal, as one JSON object. -/
def Report.refused (message : String) (trace : Trace) : Report :=
  ⟨.exit 1, (Json.object [("error", .text message)]).write none ++ "\n", "", trace⟩

/-- A source that has been read, and the settings that count for it. -/
structure Loaded where
  source : String
  settings : Settings
  delimiter : Delimiter
  trace : Trace

/-- The settings with the form of diagnostics that the command line sets. -/
def override (request : Request) (settings : Settings) : Settings :=
  { settings with outputFormat := request.outputFormat.getD settings.outputFormat }

/-- The delimiter of the command line, or else of the settings. -/
def delimiterFor (request : Request) (settings : Settings) : Except DelimiterFault Delimiter :=
  match request.quote with
  | some (.text quote) => Delimiter.ofText quote
  | some .nothing => .error .missing
  | none => settings.delimiter

/-- What stops a run when loading settings is stopped. -/
def Fault.ofLoad : Settings.LoadFault → Fault
  | .nullCharacter => .disk .nullCharacter
  | .noBytes => .disk .noBytes
  | .notText => .notText
  | .value fault => .value fault

/-- Load the settings for a source. -/
def loadSettings (world : World) (request : Request) (folder : CodeText) :
    Except Fault Settings × List LogRecord :=
  if request.config = some .nothing then (.error .noSettingsPath, [])
  else
    let found := Settings.load world.reader world.disk world.cwd request.configPath folder
    (found.result.mapError Fault.ofLoad, found.log)

/-- The folder of a file by the text of its path. -/
def folderOf (cwd : List CodeText) (file : CodeText) : CodeText :=
  Path.text (Path.root file) (Path.absolute cwd file).dropLast

/-- Read the source and the settings. -/
def load (world : World) (request : Request) : Except Report Loaded :=
  if !world.disk.isFile world.cwd request.file then
    .error (.refused ("File not found: " ++ request.file) .empty)
  else
    let found := loadSettings world request (folderOf world.cwd request.file)
    let trace : Trace := ⟨found.2, []⟩
    match found.1 with
    | .error fault => .error (.stopped fault trace)
    | .ok settings =>
      let settings := override request settings
      match delimiterFor request settings with
      | .error fault => .error (.refused fault.message trace)
      | .ok delimiter =>
        match world.disk.read world.cwd request.file with
        | .error fault => .error (.stopped (.disk fault) trace)
        | .ok content =>
          match fileText? content with
          | none => .error (.stopped .notText trace)
          | some source =>
            .ok ⟨source, settings, delimiter,
              trace.add .info "xo.cli"
                ("read " ++ toString source.length ++ " characters from " ++ request.file)⟩

/-- The end of a run with diagnostics: as JSON on the standard output, or as lines. -/
def diagnose (world : World) (request : Request) (loaded : Loaded) (d : Diagnostic)
    (trace : Trace) : Report :=
  if loaded.settings.outputFormat = "json" then
    ⟨.exit 1, (Diagnostic.listJson [d]).write (some 2) ++ "\n", "", trace⟩
  else
    ⟨.exit 1, "", Dump.diagnostics world.colour (some request.file) [d] ++ "\n", trace⟩

/-- The tokens of a source that has been read. -/
def tokensOf (world : World) (request : Request) (loaded : Loaded) :
    Except Report (List Token × Trace) :=
  match tokenize loaded.delimiter request.file loaded.source with
  | .error error => .error (diagnose world request loaded error.diagnostic loaded.trace)
  | .ok tokens =>
    .ok (tokens, loaded.trace.add .debug "xo.lexer"
      ("lexed " ++ toString tokens.length ++ " tokens from " ++ request.file))

/-- How many nodes stand at the top of a program. -/
def topLevel : Tree → Nat
  | .program body _ => body.length
  | _ => 0

/-- The tree of a source that has been read. -/
def treeOf (world : World) (request : Request) (loaded : Loaded) :
    Except Report (Tree × Trace) :=
  match tokensOf world request loaded with
  | .error report => .error report
  | .ok (tokens, trace) =>
    match parseTokens request.file tokens with
    | .error error => .error (diagnose world request loaded error.diagnostic trace)
    | .ok tree =>
      .ok (tree, trace.add .debug "xo.parser"
        ("parsed " ++ toString (topLevel tree) ++ " top-level nodes from " ++ request.file))

/-- The code of a source that has been read. -/
def codeOf (world : World) (request : Request) (loaded : Loaded) :
    Except Report (String × Trace) :=
  match treeOf world request loaded with
  | .error report => .error report
  | .ok (tree, trace) =>
    match JavaScript.emit tree with
    | .error node => .error (.stopped (.unsupported node.label) trace)
    | .ok code => .ok (code, trace)

/-- Code that went through the formatter. If formatting fails the code stays as it is; only a
failure that is not about formatting stops the run. -/
def reformat (world : World) (loaded : Loaded) (code : String) (trace : Trace) :
    Except Report (String × Trace) :=
  let formatted := Formatter.format world.runner JavaScript.language loaded.settings.formatter
    Formatter.defaultDuration code
  let trace := match formatted.started with
    | some invocation =>
      { trace.add .debug "xo.reformat"
          ("running formatter: " ++ Text.join " " (invocation.command.map (·.text))) with
        started := trace.started ++ [invocation] }
    | none => trace
  match formatted.result with
  | .ok text => .ok (text, trace)
  | .error (.raised failure) => .error (.stopped (.formatter failure) trace)
  | .error fault =>
    let trace := trace.add .warning "xo.cli" (fault.message ++ "; writing unformatted output")
    let trace := if fault.errors.isEmpty then trace
      else trace.add .debug "xo.cli" ("formatter stderr:\n" ++ fault.errors)
    .ok (code, trace)

/-- The code of a source, reformatted if `wanted`. -/
def finalCode (world : World) (request : Request) (loaded : Loaded) (wanted : Bool) :
    Except Report (String × Trace) :=
  match codeOf world request loaded with
  | .error report => .error report
  | .ok (code, trace) => if wanted then reformat world loaded code trace else .ok (code, trace)

/-- The directory that a build goes to: an option that is not empty counts before the settings. -/
def buildDir (settings : Settings) (outDir : Option String) : CodeText :=
  match outDir with
  | some dir => if dir.isEmpty then settings.buildDir else .ofString dir
  | none => settings.buildDir

/-- The name of the file that a build of a source writes. -/
def outputName (file : CodeText) : CodeText :=
  Path.stem (Path.lastName file) ++ CodeText.ofString ".js"

/-- Put code into the file with a path in a fresh build directory; messages call the directory
`name`. Gives the disk, the fault if there was one, and the trace. -/
def placeAt (world : World) (name : String) (dir path : CodeText) (code : String)
    (trace : Trace) : Disk.Change × Trace :=
  let present := world.disk.isFolder world.cwd dir
  let trace := if present then trace.add .info "xo.cli" ("clearing " ++ name) else trace
  let cleared := if present then world.disk.removeFolder world.cwd dir else ⟨world.disk, none⟩
  match cleared.fault with
  | some fault => (⟨cleared.disk, some fault⟩, trace)
  | none =>
    let made := cleared.disk.makeFolders world.cwd dir
    match made.fault with
    | some fault => (⟨made.disk, some fault⟩, trace)
    | none => (made.disk.write world.cwd path code.toUTF8, trace)

/-- Put the code of a source into the build directory. -/
def place (world : World) (dir : CodeText) (file code : String) (trace : Trace) :
    Disk.Change × Trace :=
  let path := Path.onDisk dir
  placeAt world dir.text path (Path.child path (outputName file)) code trace

/-- The message of a successful build. -/
def builtText (world : World) (settings : Settings) (dir : CodeText) (file : String) : String :=
  let path := Path.child dir (outputName file)
  if settings.outputFormat = "json" then
    Json.writePoints (.object [("status", .text "compiled"), ("output", .text path)])
  else Dump.success world.colour (file ++ " → " ++ path.text)

/-- Compile a source into the build directory. -/
def runBuild (world : World) (request : Request) (loaded : Loaded) (outDir : Option String)
    (noFormat : Bool) : Report × Disk :=
  match finalCode world request loaded (loaded.settings.format && !noFormat) with
  | .error report => (report, world.disk)
  | .ok (code, trace) =>
    let dir := buildDir loaded.settings outDir
    let (change, trace) := place world dir request.file code trace
    match change.fault with
    | some fault => (.stopped (.disk fault) trace, change.disk)
    | none =>
      (.done (builtText world loaded.settings dir request.file ++ "\n") trace, change.disk)

/-- Compile a source onto the standard output. -/
def runEmit (world : World) (request : Request) (loaded : Loaded) (format : Bool) : Report :=
  match finalCode world request loaded format with
  | .error report => report
  | .ok (code, trace) => .done code trace

/-- A limit of zero is none. -/
def limitOf (maxItems : Int) : Option Int := if maxItems = 0 then none else some maxItems

/-- A token for tools. -/
def tokenJson (t : Token) : Json :=
  .object [("kind", .text t.kind.label), ("text", .text t.text), ("line", .int t.location.line),
    ("column", .int t.location.column)]

/-- Show the tokens of a source. -/
def runTokens (world : World) (request : Request) (loaded : Loaded) (json : Bool)
    (maxItems : Int) : Report :=
  match tokensOf world request loaded with
  | .error report => report
  | .ok (tokens, trace) =>
    .done ((if json then (Json.list (tokens.map tokenJson)).write (some 2)
      else Dump.tokens world.colour (limitOf maxItems) tokens) ++ "\n") trace

/-- Show the tree of a source. -/
def runAst (world : World) (request : Request) (loaded : Loaded) (json : Bool)
    (maxItems : Int) : Report :=
  match treeOf world request loaded with
  | .error report => report
  | .ok (tree, trace) =>
    .done ((if json then tree.toJson.write (some 2)
      else Dump.tree world.colour (limitOf maxItems) tree) ++ "\n") trace

/-- Run a command; gives its report and the disk after it. -/
def runRequest (world : World) (request : Request) : Report × Disk :=
  match load world request with
  | .error report => (report, world.disk)
  | .ok loaded =>
    match request.action with
    | .build outDir noFormat => runBuild world request loaded outDir noFormat
    | .emit format => (runEmit world request loaded format, world.disk)
    | .tokens json maxItems => (runTokens world request loaded json maxItems, world.disk)
    | .ast json maxItems => (runAst world request loaded json maxItems, world.disk)

/-- The version of the program. -/
def version : String := "0.1.0"

/-- A run that only writes. -/
def written (world : World) (status : Nat) (stdout stderr : String) : Result :=
  ⟨.exit status, stdout, stderr, [], world.disk⟩

/-- Run the program. -/
def run (world : World) (arguments : List String) : Result :=
  match readArguments arguments with
  | .help page => written world 0 page.text ""
  | .version => written world 0 ("xo " ++ version ++ "\n") ""
  | .nothing => written world 1 Page.main.text ""
  | .refused page message =>
    written world 2 "" (page.usage ++ page.program ++ ": error: " ++ message ++ "\n")
  | .run verbosity request =>
    let (report, disk) := runRequest world request
    report.result verbosity disk

end XoLang.Command
