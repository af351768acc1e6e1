import XoLang.Proofs.Agreement

/-!
# The formatter in a run

A run hands its code to the formatter at most once: when the source has been read and compiled and
reformatting is asked for, by the settings in a build and by an option elsewhere. Whether the
command succeeds, fails, takes too long or is not there at all, the run ends as it would have ended
without it; only the code that is written or shown may be that of the formatter.
-/

namespace XoLang

/-! Files that have been written. -/

namespace Disk

/-- A file that was written under a path is read back under that path. -/
theorem read_of_takes {disk : Disk} {cwd : List CodeText} {dir name : CodeText}
    {content : ByteArray} (isName : OutputName name) (takes : disk.Takes cwd dir name) :
    (disk.put (Path.absolute cwd dir ++ [name]) (.file content)).read cwd (Path.child dir name) =
      .ok content := by
  obtain ⟨above, names, dirNames⟩ := Path.names_child isName.noSlash dir
  have before : disk.Leads (Path.origin cwd dir) above ∧
      above.foldl Path.follow (Path.origin cwd dir) = Path.absolute cwd dir := by
    rcases dirNames with same | same
    · rw [Path.absolute_eq, same]
      exact ⟨same ▸ takes.leads, rfl⟩
    · rw [Path.absolute_eq, same, List.foldl_concat]
      exact ⟨(leads_concat_iff.mp (same ▸ takes.leads)).1, rfl⟩
  have leads :
      disk.Leads (Path.origin cwd (Path.child dir name)) (Path.names (Path.child dir name)) := by
    rw [Path.origin_child isName.noSlash, names, leads_concat_iff, before.2]
    exact ⟨before.1, takes.folder, takes.short⟩
  have place : Path.absolute cwd (Path.child dir name) = Path.absolute cwd dir ++ [name] := by
    rw [Path.absolute_eq, Path.origin_child isName.noSlash, names, List.foldl_concat, before.2]
    exact Path.follow_of_name (by simp [Path.isHere, isName.notEmpty, isName.notHere]) isName.notUp
  refine read_eq_ok_iff.mpr (find_eq_ok_iff.mpr ⟨takes.good, ⟨?_, leads.short⟩, ?_⟩)
  · intro p mem
    have folder := leads.folders p mem
    have other : p ≠ Path.absolute cwd dir ++ [name] := by
      rintro rfl
      exact takes.free folder
    rw [get?_put (by simp), if_neg other, folder]
  · rw [place, get?_put (by simp), if_pos rfl]

theorem fault_write (disk : Disk) (cwd : List CodeText) (path : CodeText) (a b : ByteArray) :
    (disk.write cwd path a).fault = (disk.write cwd path b).fault := by
  rw [write, write]
  split
  · rfl
  · rfl
  · split <;> rfl

/-- Whether a folder can be replaced does not depend on what is to be written. -/
theorem fault_replaceFolder (disk : Disk) (cwd : List CodeText) (dir path : CodeText)
    (a b : ByteArray) :
    (disk.replaceFolder cwd dir path a).fault = (disk.replaceFolder cwd dir path b).fault := by
  rw [replaceFolder, replaceFolder]
  split
  · rfl
  split
  · rfl
  · exact fault_write _ cwd path a b

end Disk

namespace Command

/-! What is handed to the formatter, and what comes back. -/

/-- The source of a request is read, and it compiles. -/
def Compiles (world : World) (request : Request) (settings : Settings) (code : String) : Prop :=
  ∃ delimiter source, Reads world request settings delimiter source ∧
    compile delimiter request.file source = .ok code

/-- Whether the code is to be reformatted. -/
def Action.reformats (action : Action) (settings : Settings) : Bool :=
  match action with
  | .build _ noFormat => settings.format && !noFormat
  | .emit format => format
  | .tokens _ _ | .ast _ _ => false

/-- The same without reformatting. -/
def Action.plain : Action → Action
  | .build outDir _ => .build outDir true
  | .emit _ => .emit false
  | action => action

/-- How the formatter is started on code. -/
def formatterStart (settings : Settings) (code : String) : Formatter.Invocation where
  command := (if settings.formatter = [] then [.ofString "prettier"] else settings.formatter) ++
    [.ofString "--parser", .ofString "babel"]
  input := code

/-- The code behind a formatter that could be started. -/
inductive Yields (code : String) : Formatter.RunResult → String → Prop
  | reformatted {output errors : String} : Yields code (.exited 0 output errors) output
  | failed {status : Int} {output errors : String} (bad : status ≠ 0) :
      Yields code (.exited status output errors) code
  | notFound : Yields code .notFound code
  | timedOut : Yields code .timedOut code

/-- What has been started when a step of a run is over. -/
def startedBy (step : Except Report (α × Trace)) : List Formatter.Invocation :=
  match step with
  | .error report => report.trace.started
  | .ok (_, trace) => trace.started

section Steps

variable {world : World} {request : Request} {loaded : Loaded} {code final : String}
variable {trace : Trace} {settings : Settings}

/-- Reading starts nothing. -/
theorem startedBy_load (world : World) (request : Request) :
    startedBy ((load world request).map fun loaded => (loaded, loaded.trace)) = [] := by
  rw [load]
  split_ifs
  · rfl
  simp only
  split
  · rfl
  split
  · rfl
  split
  · rfl
  split <;> rfl

theorem started_of_load (read : load world request = .ok loaded) : loaded.trace.started = [] := by
  have nothing := startedBy_load world request
  rwa [read] at nothing

theorem started_diagnose (world : World) (request : Request) (loaded : Loaded) (d : Diagnostic)
    (trace : Trace) : (diagnose world request loaded d trace).trace.started = trace.started := by
  rw [diagnose]
  split_ifs <;> rfl

theorem startedBy_tokensOf (world : World) (request : Request) (loaded : Loaded) :
    startedBy (tokensOf world request loaded) = loaded.trace.started := by
  rw [tokensOf]
  split
  · exact started_diagnose world request loaded _ _
  · rfl

theorem startedBy_treeOf (world : World) (request : Request) (loaded : Loaded) :
    startedBy (treeOf world request loaded) = loaded.trace.started := by
  have before := startedBy_tokensOf world request loaded
  rw [treeOf]
  split
  · rename_i failed
    rwa [failed] at before
  · rename_i lexed
    rw [lexed] at before
    split
    · exact (started_diagnose world request loaded _ _).trans before
    · exact before

theorem startedBy_codeOf (world : World) (request : Request) (loaded : Loaded) :
    startedBy (codeOf world request loaded) = loaded.trace.started := by
  have before := startedBy_treeOf world request loaded
  rw [codeOf]
  split
  · rename_i failed
    rwa [failed] at before
  · rename_i parsed
    rw [parsed] at before
    split <;> exact before

theorem format_eq (runner : Formatter.Runner) (settings : Settings) (code : String) :
    Formatter.format runner JavaScript.language settings.formatter Formatter.defaultDuration code =
      ⟨Formatter.judge (formatterStart settings code).command Formatter.defaultDuration
        (runner (formatterStart settings code)), some (formatterStart settings code)⟩ := by
  have known : Formatter.parserFor? JavaScript.language = some "babel" := by decide
  have start : (⟨Formatter.commandLine settings.formatter "babel", code⟩ : Formatter.Invocation) =
      formatterStart settings code := by
    simp [Formatter.commandLine, formatterStart, Formatter.defaultCommand, List.isEmpty_iff]
  rw [Formatter.format, known]
  simp only
  rw [start, ← start]

/-- Reformatting starts one command, whatever becomes of it. -/
theorem startedBy_reformat (world : World) (loaded : Loaded) (code : String) (trace : Trace) :
    startedBy (reformat world loaded code trace) =
      trace.started ++ [formatterStart loaded.settings code] := by
  rw [reformat]
  simp only [format_eq]
  split
  · rfl
  · rfl
  · simp only [startedBy, Trace.add]
    split_ifs <;> rfl

theorem reformatted?_of_yields {runner : Formatter.Runner}
    (yields : Yields code (runner (formatterStart settings code)) final) :
    reformatted? runner settings.formatter code = some final := by
  rw [reformatted?, format_eq]
  generalize runner (formatterStart settings code) = result at yields
  cases yields with
  | reformatted => simp [Formatter.judge]
  | failed bad => simp [Formatter.judge, bad]
  | notFound => simp [Formatter.judge]
  | timedOut => simp [Formatter.judge]

theorem startedBy_finalCode {wanted : Bool}
    (ready : codeOf world request loaded = .ok (code, trace)) :
    startedBy (finalCode world request loaded wanted) = loaded.trace.started ++
      if wanted then [formatterStart loaded.settings code] else [] := by
  have before := startedBy_codeOf world request loaded
  rw [ready] at before
  rw [finalCode, ready]
  simp only
  split_ifs
  · rw [startedBy_reformat, ← before]
    rfl
  · rw [List.append_nil]
    exact before

theorem started_placeAt (world : World) (name : String) (dir path : CodeText) (code : String)
    (trace : Trace) : (placeAt world name dir path code trace).2.started = trace.started := by
  have kept : (if world.disk.isFolder world.cwd dir then
      trace.add .info "xo.cli" ("clearing " ++ name) else trace).started = trace.started := by
    split_ifs <;> rfl
  rw [placeAt]
  simp only
  split
  · exact kept
  split
  · exact kept
  · exact kept

theorem started_place (world : World) (dir : CodeText) (file code : String) (trace : Trace) :
    (place world dir file code trace).2.started = trace.started :=
  started_placeAt world dir.text (Path.onDisk dir) _ code trace

theorem started_runBuild (world : World) (request : Request) (loaded : Loaded)
    (outDir : Option String) (noFormat : Bool) :
    (runBuild world request loaded outDir noFormat).1.trace.started =
      startedBy (finalCode world request loaded (loaded.settings.format && !noFormat)) := by
  rw [runBuild]
  split
  · rename_i failed
    rw [failed]
    rfl
  · rename_i code trace ready
    rw [ready]
    have kept := started_place world (buildDir loaded.settings outDir) request.file code trace
    simp only
    split <;> exact kept

theorem started_runEmit (world : World) (request : Request) (loaded : Loaded) (format : Bool) :
    (runEmit world request loaded format).trace.started =
      startedBy (finalCode world request loaded format) := by
  rw [runEmit]
  split
  · rename_i failed
    rw [failed]
    rfl
  · rename_i ready
    rw [ready]
    rfl

end Steps

/-! What a run starts. -/

section Runs

variable {world : World} {request : Request} {loaded : Loaded} {code final : String}
variable {trace : Trace} {settings : Settings}

/-- Once the source has been read only the final code can start something. -/
theorem started_runRequest (read : load world request = .ok loaded) :
    (runRequest world request).1.trace.started =
      match request.action with
      | .build _ noFormat =>
        startedBy (finalCode world request loaded (loaded.settings.format && !noFormat))
      | .emit format => startedBy (finalCode world request loaded format)
      | .tokens _ _ | .ast _ _ => [] := by
  have nothing := started_of_load read
  rw [runRequest, read]
  cases action : request.action with
  | build outDir noFormat => exact started_runBuild world request loaded outDir noFormat
  | emit format => exact started_runEmit world request loaded format
  | tokens json maxItems =>
    have kept := startedBy_tokensOf world request loaded
    simp only [runTokens]
    split
    · rename_i failed
      rw [failed, nothing] at kept
      exact kept
    · rename_i lexed
      rw [lexed, nothing] at kept
      exact kept
  | ast json maxItems =>
    have kept := startedBy_treeOf world request loaded
    simp only [runAst]
    split
    · rename_i failed
      rw [failed, nothing] at kept
      exact kept
    · rename_i parsed
      rw [parsed, nothing] at kept
      exact kept

theorem ready_of_compiles (compiles : Compiles world request settings code) :
    ∃ loaded trace, load world request = .ok loaded ∧
      codeOf world request loaded = .ok (code, trace) ∧
      loaded.settings = override request settings := by
  obtain ⟨delimiter, source, reads, compiled⟩ := compiles
  obtain ⟨before, read⟩ := load_of_reads reads
  obtain ⟨after, ready⟩ : ∃ after, codeOf world request
      ⟨source, override request settings, delimiter, before⟩ = .ok (code, after) :=
    codeOf_eq_ok_iff.mpr compiled
  exact ⟨_, after, read, ready, rfl⟩

theorem started_of_compiles (compiles : Compiles world request settings code) :
    (runRequest world request).1.trace.started =
      if request.action.reformats settings then [formatterStart settings code] else [] := by
  obtain ⟨loaded, trace, read, ready, same⟩ := ready_of_compiles compiles
  rw [started_runRequest read]
  cases request.action with
  | build outDir noFormat =>
    simp only [startedBy_finalCode ready, started_of_load read, List.nil_append, same]
    rfl
  | emit format =>
    simp only [startedBy_finalCode ready, started_of_load read, List.nil_append, same]
    rfl
  | tokens json maxItems => rfl
  | ast json maxItems => rfl

theorem started_of_not_compiles (broken : ∀ settings code, ¬ Compiles world request settings code) :
    (runRequest world request).1.trace.started = [] := by
  cases read : load world request with
  | error report =>
    have nothing := startedBy_load world request
    rw [runRequest, read]
    rwa [read] at nothing
  | ok loaded =>
    have unready : ∀ wanted, startedBy (finalCode world request loaded wanted) = [] := by
      intro wanted
      cases ready : codeOf world request loaded with
      | error report =>
        have kept := startedBy_codeOf world request loaded
        rw [ready, started_of_load read] at kept
        rw [finalCode, ready]
        exact kept
      | ok made =>
        obtain ⟨settings, reads, -⟩ := reads_of_load read
        exact absurd ⟨_, _, reads, codeOf_eq_ok_iff.mp ⟨_, ready⟩⟩ (broken settings made.1)
    rw [started_runRequest read]
    cases request.action with
    | build outDir noFormat => exact unready _
    | emit format => exact unready _
    | tokens json maxItems => rfl
    | ast json maxItems => rfl

/-- A run starts nothing, or the formatter on the code of its source. -/
theorem mem_started_iff {start : Formatter.Invocation} :
    start ∈ (runRequest world request).1.trace.started ↔
      ∃ settings code, Compiles world request settings code ∧
        request.action.reformats settings = true ∧ start = formatterStart settings code := by
  constructor
  · intro mem
    by_cases compiles : ∃ settings code, Compiles world request settings code
    · obtain ⟨settings, code, compiles⟩ := compiles
      rw [started_of_compiles compiles] at mem
      split_ifs at mem with wanted
      · exact ⟨settings, code, compiles, wanted, List.mem_singleton.mp mem⟩
      · cases mem
    · push Not at compiles
      rw [started_of_not_compiles compiles] at mem
      cases mem
  · rintro ⟨settings, code, compiles, wanted, rfl⟩
    rw [started_of_compiles compiles, if_pos wanted]
    exact List.mem_singleton_self _

theorem length_started_le (world : World) (request : Request) :
    (runRequest world request).1.trace.started.length ≤ 1 := by
  by_cases compiles : ∃ settings code, Compiles world request settings code
  · obtain ⟨settings, code, compiles⟩ := compiles
    rw [started_of_compiles compiles]
    split_ifs <;> simp
  · push Not at compiles
    rw [started_of_not_compiles compiles]
    simp

/-! What becomes of the code. -/

theorem finalCode_of_yields (ready : codeOf world request loaded = .ok (code, trace))
    (yields : Yields code (world.runner (formatterStart loaded.settings code)) final) :
    ∃ after, finalCode world request loaded true = .ok (final, after) := by
  rw [finalCode, ready]
  exact reformat_eq_ok_iff.mpr (reformatted?_of_yields yields)

theorem finalCode_plain (ready : codeOf world request loaded = .ok (code, trace)) :
    finalCode world request loaded false = .ok (code, trace) := by
  rw [finalCode, ready]
  rfl

theorem endingOf_placed (world : World) (dir : CodeText) (file a b : String) :
    endingOf (placed world dir file a) = endingOf (placed world dir file b) := by
  rw [endingOf, endingOf, placed, placed, Disk.fault_replaceFolder _ _ _ _ _ b.toUTF8]

/-- A build that succeeds leaves the code under the path of its file. -/
theorem read_placed {dir : CodeText} {file : String}
    (success : endingOf (placed world dir file code) = .exit 0) :
    (placed world dir file code).disk.read world.cwd
      (Path.child (Path.onDisk dir) (outputName file)) = .ok code.toUTF8 := by
  have clean : (placed world dir file code).fault = none := by
    rw [endingOf] at success
    split at success
    · cases success
    · assumption
  rw [placed] at clean ⊢
  have isName := outputName_isName file
  obtain ⟨removed, made, takes⟩ := Disk.takes_of_replaceFolder isName clean
  rw [Disk.replaceFolder_of_takes isName removed made takes]
  exact Disk.read_of_takes isName takes

end Runs

/-- What a run does with code that went through the formatter. -/
structure Delivers (world : World) (request : Request) (settings : Settings) (final : String)
    (result : Result) : Prop where
  /-- The run ends as it would have ended without the formatter. -/
  ending : result.ending =
    (runRequest world { request with action := request.action.plain }).1.ending
  shown : ∀ format, request.action = .emit format → result.stdout = final
  placed : ∀ outDir noFormat, request.action = .build outDir noFormat →
    result.disk = (placed world (buildDir settings outDir) request.file final).disk
  written : ∀ outDir noFormat, request.action = .build outDir noFormat →
    result.ending = .exit 0 → result.disk.read world.cwd
      (Path.child (Path.onDisk (buildDir settings outDir)) (outputName request.file)) =
        .ok final.toUTF8

section Delivering

variable {world : World} {request : Request} {settings : Settings} {loaded : Loaded}
variable {code final : String} {trace after : Trace} {outDir : Option String} {noFormat : Bool}

/-- The request without reformatting reads the same and comes to the same code. -/
theorem plain_of_ready (read : load world request = .ok loaded)
    (ready : codeOf world request loaded = .ok (code, trace)) (action : Action) :
    load world { request with action := action } = .ok loaded ∧
      finalCode world { request with action := action } loaded false = .ok (code, trace) :=
  ⟨read, finalCode_plain ready⟩

theorem delivers_emit (action : request.action = .emit true)
    (read : load world request = .ok loaded)
    (ready : codeOf world request loaded = .ok (code, trace))
    (done : finalCode world request loaded true = .ok (final, after)) (verbosity : Nat) :
    Delivers world request settings final (resultOf world verbosity request) := by
  obtain ⟨plainRead, plainDone⟩ := plain_of_ready read ready (.emit false)
  have result : resultOf world verbosity request =
      (Report.done final after).result verbosity world.disk := by
    rw [resultOf, runRequest, read]
    simp only [action, runEmit, done]
  rw [result]
  refine ⟨?_, fun _ _ => rfl, by simp [action], by simp [action]⟩
  rw [action, Action.plain, runRequest, plainRead]
  simp only [runEmit, plainDone]
  rfl

theorem delivers_build (action : request.action = .build outDir noFormat)
    (read : load world request = .ok loaded)
    (ready : codeOf world request loaded = .ok (code, trace))
    (done : finalCode world request loaded (loaded.settings.format && !noFormat) =
      .ok (final, after))
    (dir : buildDir loaded.settings outDir = buildDir settings outDir) (verbosity : Nat) :
    Delivers world request settings final (resultOf world verbosity request) := by
  obtain ⟨plainRead, plainDone⟩ := plain_of_ready read ready (.build outDir true)
  have plainWanted : (loaded.settings.format && !true) = false := by
    rw [Bool.not_true, Bool.and_false]
  obtain ⟨disk, ending⟩ : (runBuild world request loaded outDir noFormat).2 = _ ∧ _ :=
    runBuild_of_finalCode done
  obtain ⟨-, plainEnding⟩ : (runBuild world { request with action := .build outDir true } loaded
      outDir true).2 = _ ∧ _ := runBuild_of_finalCode (plainWanted ▸ plainDone)
  rw [dir] at disk ending plainEnding
  have result : resultOf world verbosity request =
      (runBuild world request loaded outDir noFormat).1.result verbosity
        (runBuild world request loaded outDir noFormat).2 := by
    rw [resultOf, runRequest, read]
    simp only [action]
  rw [result]
  refine ⟨?_, by simp [action], ?_, ?_⟩
  · rw [action, Action.plain, runRequest, plainRead]
    exact (ending.trans (endingOf_placed _ _ _ final code)).trans plainEnding.symm
  · intro outDir' noFormat' same
    rw [action] at same
    cases same
    exact disk
  · intro outDir' noFormat' same success
    rw [action] at same
    cases same
    have leaves : ((runBuild world request loaded outDir noFormat).1.result verbosity
        (runBuild world request loaded outDir noFormat).2).disk = _ := disk
    rw [leaves]
    exact read_placed (ending ▸ success)

theorem delivers_of_yields (compiles : Compiles world request settings code)
    (wanted : request.action.reformats settings = true)
    (yields : Yields code (world.runner (formatterStart settings code)) final) (verbosity : Nat) :
    Delivers world request settings final (resultOf world verbosity request) := by
  obtain ⟨loaded, trace, read, ready, same⟩ := ready_of_compiles compiles
  have start : formatterStart loaded.settings code = formatterStart settings code := by
    rw [same]
    rfl
  obtain ⟨after, done⟩ := finalCode_of_yields ready (start ▸ yields)
  cases action : request.action with
  | tokens json maxItems => simp [action, Action.reformats] at wanted
  | ast json maxItems => simp [action, Action.reformats] at wanted
  | emit format =>
    obtain rfl : format = true := by simpa [action, Action.reformats] using wanted
    exact delivers_emit action read ready done verbosity
  | build outDir noFormat =>
    have asked : (loaded.settings.format && !noFormat) = true := by
      rw [action, Action.reformats] at wanted
      rw [same]
      exact wanted
    have dir : buildDir loaded.settings outDir = buildDir settings outDir := by
      rw [same]
      rfl
    exact delivers_build action read ready (asked ▸ done) dir verbosity

end Delivering

/-- The formatter is started at most once, and exactly on the code of a source that compiles where
reformatting is asked for. A formatter that fails leaves the code as it is, and no run ends
differently because of it. -/
theorem formatter_used_once (world : World) (arguments : List String) :
    (run world arguments).started.length ≤ 1 ∧
    (∀ start, start ∈ (run world arguments).started ↔
      ∃ verbosity request settings code, readArguments arguments = .run verbosity request ∧
        Compiles world request settings code ∧ request.action.reformats settings = true ∧
        start = formatterStart settings code) ∧
    ∀ verbosity request settings code final, readArguments arguments = .run verbosity request →
      Compiles world request settings code → request.action.reformats settings = true →
      Yields code (world.runner (formatterStart settings code)) final →
      Delivers world request settings final (run world arguments) := by
  cases asked : readArguments arguments with
  | help page => simp [run, asked, written]
  | version => simp [run, asked, written]
  | nothing => simp [run, asked, written]
  | refused page message => simp [run, asked, written]
  | run verbosity request =>
    rw [run_eq world asked]
    refine ⟨length_started_le world request, ?_, ?_⟩
    · intro start
      refine mem_started_iff.trans ⟨?_, ?_⟩
      · rintro ⟨settings, code, compiles, wanted, same⟩
        exact ⟨verbosity, request, settings, code, rfl, compiles, wanted, same⟩
      · rintro ⟨_, _, settings, code, ⟨⟩, compiles, wanted, same⟩
        exact ⟨settings, code, compiles, wanted, same⟩
    · rintro _ _ settings code final ⟨⟩ compiles wanted yields
      exact delivers_of_yields compiles wanted yields verbosity

/-- A project with a formatter of its own, which ends with a status behind each text. -/
def ownFormatter (status : Int) : World where
  disk := ⟨[(["a.xo"], .file ⟨#[55]⟩), ([".xorc.yml"], .file "formatter: npx prettier".toUTF8)]⟩
  cwd := []
  colour := false
  runner := fun start => .exited status (start.input ++ ";\n") ""
  reader := .standard id ""

theorem ownFormatter_compiles (status : Int) (action : Action) :
    Compiles (ownFormatter status) ⟨"a.xo", none, none, none, action⟩
      { Settings.default with formatter := ["npx", "prettier"] } "7" := by
  have disk : (ownFormatter status).disk = (ownFormatter 0).disk := rfl
  have folder : folderOf (ownFormatter status).cwd "a.xo" = "/" := by
    have root : folderOf [] "a.xo" = "/" := by decide
    exact root
  have found : (Settings.load (.standard id "") (ownFormatter 0).disk [] none "/").result =
      .ok { Settings.default with formatter := ["npx", "prettier"] } := by decide +kernel
  have read : (ownFormatter 0).disk.read [] "a.xo" = .ok ⟨#[55]⟩ := by decide
  have text : fileText? ⟨#[55]⟩ = some "7" := by decide
  refine ⟨.default, "7", ⟨?_, rfl, ⟨#[55]⟩, ?_, text⟩, compile_seven _ _⟩
  · rw [loadSettings, if_neg (by simp), folder, disk]
    exact congrArg (·.mapError Fault.ofLoad) found
  · rw [disk]
    exact read

/-- Its code is shown reformatted, and built as it is if the formatter fails. -/
theorem own_formatter_used :
    ⟨["npx", "prettier", "--parser", "babel"], "7"⟩ ∈
      (run (ownFormatter 0) ["emit", "a.xo", "--format"]).started ∧
    (run (ownFormatter 0) ["emit", "a.xo", "--format"]).stdout = "7;\n" ∧
    (run (ownFormatter 2) ["build", "a.xo"]).ending = .exit 0 ∧
    (run (ownFormatter 2) ["build", "a.xo"]).disk.read [] "build/a.js" = .ok "7".toUTF8 := by
  have asksEmit : readArguments ["emit", "a.xo", "--format"] =
      .run 0 ⟨"a.xo", none, none, none, .emit true⟩ := by decide
  have asksBuild : readArguments ["build", "a.xo"] =
      .run 0 ⟨"a.xo", none, none, none, .build none false⟩ := by decide
  obtain ⟨-, started, delivers⟩ := formatter_used_once (ownFormatter 0) ["emit", "a.xo", "--format"]
  have shown := (delivers 0 _ _ "7" "7;\n" asksEmit (ownFormatter_compiles 0 _) rfl
    .reformatted).shown true rfl
  have built := (formatter_used_once (ownFormatter 2) ["build", "a.xo"]).2.2 0 _ _ "7" "7" asksBuild
    (ownFormatter_compiles 2 _) rfl (.failed (by decide))
  have success : (run (ownFormatter 2) ["build", "a.xo"]).ending = .exit 0 := by
    have asksPlain : readArguments ["build", "a.xo", "--no-format"] =
        .run 0 ⟨"a.xo", none, none, none, .build none true⟩ := by decide
    obtain ⟨delimiter, source, reads, compiled⟩ := ownFormatter_compiles 2 (.build none true)
    have plain := (run_of_makes asksPlain rfl ⟨delimiter, source, "7", reads, compiled, rfl⟩).2
    rw [run_eq _ asksPlain] at plain
    rw [built.ending]
    refine plain.trans ?_
    decide
  have read := built.written none false rfl success
  exact ⟨(started _).mpr ⟨0, _, _, "7", asksEmit, ownFormatter_compiles 0 _, rfl, rfl⟩, shown,
    success, read⟩

end Command

end XoLang
