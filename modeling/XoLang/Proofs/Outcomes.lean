import XoLang.Proofs.Rendering
import XoLang.Proofs.Replacing

/-!
# How runs end

A build has three stages: reading the settings and the source, making the code, and putting it on
the disk. The disk changes only in the last one, which ends with status 0 or a fault of the disk.
So a run that fails before leaves everything as it was, and what the others take away lies in
their folder.
-/

namespace XoLang.Command

/-! The file that a build writes. -/

theorem mem_of_mem_stem {name : CodeText} {point : CodePoint} (mem : point ∈ Path.stem name) :
    point ∈ name := by
  rw [Path.stem] at mem
  split_ifs at mem
  · exact mem
  · exact List.mem_of_mem_take mem

theorem not_mem_lastName (path : CodeText) : Path.slash ∉ Path.lastName path := by
  rw [Path.lastName, List.getLastD_eq_getLast?]
  cases last : (Path.names path).getLast? with
  | none => simp
  | some name => exact Path.not_mem_of_mem_names (List.mem_of_getLast? last)

theorem outputName_isName (file : CodeText) : Disk.OutputName (outputName file) := by
  have ending : CodeText.ofString ".js" = [.char '.', .char 'j', .char 's'] := by decide
  have other : ∀ text : CodeText, text.length < 3 → outputName file ≠ text := by
    rintro text short rfl
    rw [outputName, ending, List.length_append] at short
    simp only [List.length_cons, List.length_nil] at short
    omega
  constructor
  · rw [outputName, ending]
    intro mem
    rcases List.mem_append.mp mem with mem | mem
    · exact not_mem_lastName file (mem_of_mem_stem mem)
    · simp [Path.slash] at mem
  · exact other [] (by decide)
  · exact other Path.here (by decide)
  · exact other Path.up (by decide)

/-! Making the code. -/

/-- Code behind the formatter: a formatter that fails leaves it as it is, and one that cannot be run
gives nothing. -/
def reformatted? (runner : Formatter.Runner) (command : List CodeText) (code : String) :
    Option String :=
  match (Formatter.format runner JavaScript.language command Formatter.defaultDuration code).result
    with
  | .ok text => some text
  | .error (.raised _) => none
  | .error _ => some code

section Code

variable {world : World} {request : Request} {loaded : Loaded} {code : String}

theorem codeOf_eq_ok_iff : (∃ trace, codeOf world request loaded = .ok (code, trace)) ↔
    compile loaded.delimiter request.file loaded.source = .ok code := by
  rw [codeOf, treeOf, tokensOf, compile, parse]
  cases tokenize loaded.delimiter request.file loaded.source with
  | error error => simp
  | ok tokens =>
    simp only
    cases parseTokens request.file tokens with
    | error error => simp
    | ok tree =>
      simp only
      cases JavaScript.emit tree with
      | error node => simp
      | ok text => simp

theorem reformat_eq_ok_iff {trace : Trace} {text : String} :
    (∃ after, reformat world loaded code trace = .ok (text, after)) ↔
      reformatted? world.runner loaded.settings.formatter code = some text := by
  rw [reformat, reformatted?]
  simp only
  cases (Formatter.format world.runner JavaScript.language loaded.settings.formatter
    Formatter.defaultDuration code).result with
  | ok text => simp
  | error fault => cases fault <;> simp

theorem finalCode_eq_ok_iff {wanted : Bool} :
    (∃ trace, finalCode world request loaded wanted = .ok (code, trace)) ↔
      ∃ plain, compile loaded.delimiter request.file loaded.source = .ok plain ∧
        if wanted = true then reformatted? world.runner loaded.settings.formatter plain = some code
        else plain = code := by
  rw [finalCode]
  constructor
  · rintro ⟨trace, h⟩
    split at h
    · cases h
    · rename_i plain before made
      refine ⟨plain, codeOf_eq_ok_iff.mp ⟨before, made⟩, ?_⟩
      split_ifs at h ⊢
      · exact reformat_eq_ok_iff.mp ⟨trace, h⟩
      · cases h
        rfl
  · rintro ⟨plain, compiled, h⟩
    have made : ∃ trace, codeOf world request loaded = .ok (plain, trace) :=
      codeOf_eq_ok_iff.mpr compiled
    obtain ⟨before, made⟩ := made
    rw [made]
    simp only
    split_ifs at h ⊢
    · exact reformat_eq_ok_iff.mpr h
    · exact ⟨before, by rw [h]⟩

theorem ending_of_diagnose (world : World) (request : Request) (loaded : Loaded) (d : Diagnostic)
    (trace : Trace) : (diagnose world request loaded d trace).ending = .exit 1 := by
  rw [diagnose]
  split_ifs <;> rfl

theorem ending_of_codeOf {report : Report} (failed : codeOf world request loaded = .error report) :
    report.ending ≠ .exit 0 := by
  rw [codeOf, treeOf, tokensOf] at failed
  cases tokenized : tokenize loaded.delimiter request.file loaded.source with
  | error error =>
    rw [tokenized] at failed
    cases failed
    simp [ending_of_diagnose]
  | ok tokens =>
    simp only [tokenized] at failed
    cases parsed : parseTokens request.file tokens with
    | error error =>
      simp only [parsed] at failed
      cases failed
      simp [ending_of_diagnose]
    | ok tree =>
      simp only [parsed] at failed
      cases emitted : JavaScript.emit tree with
      | error node =>
        simp only [emitted] at failed
        cases failed
        simp [Report.stopped]
      | ok code =>
        simp only [emitted] at failed
        cases failed

/-- A run that is stopped while it makes its code ends with status 1 or with a fault. -/
theorem ending_of_finalCode {report : Report} {wanted : Bool}
    (failed : finalCode world request loaded wanted = .error report) :
    report.ending ≠ .exit 0 := by
  rw [finalCode] at failed
  split at failed
  · rename_i other made
    cases failed
    exact ending_of_codeOf made
  · split_ifs at failed
    rw [reformat] at failed
    simp only at failed
    split at failed
    · cases failed
    · cases failed
      simp [Report.stopped]
    · cases failed

end Code

/-! Reading. -/

/-- What a run reads: the settings, the delimiter that counts and the text of the source. -/
structure Reads (world : World) (request : Request) (settings : Settings) (delimiter : Delimiter)
    (source : String) : Prop where
  found : (loadSettings world request (folderOf world.cwd request.file)).1 = .ok settings
  accepted : delimiterFor request settings = .ok delimiter
  text : ∃ content, world.disk.read world.cwd request.file = .ok content ∧
    fileText? content = some source

section Reading

variable {world : World} {request : Request} {report : Report}

theorem reads_of_load {loaded : Loaded} (h : load world request = .ok loaded) :
    ∃ settings, Reads world request settings loaded.delimiter loaded.source ∧
      loaded.settings = override request settings := by
  rw [load] at h
  split_ifs at h
  simp only at h
  split at h
  · cases h
  rename_i settings found
  split at h
  · cases h
  rename_i delimiter accepted
  split at h
  · cases h
  rename_i content read
  split at h
  · cases h
  rename_i source text
  cases h
  exact ⟨settings, ⟨found, accepted, content, read, text⟩, rfl⟩

theorem load_of_reads {settings : Settings} {delimiter : Delimiter} {source : String}
    (h : Reads world request settings delimiter source) :
    ∃ trace, load world request = .ok ⟨source, override request settings, delimiter, trace⟩ := by
  obtain ⟨found, accepted, content, read, text⟩ := h
  have present : world.disk.isFile world.cwd request.file = true :=
    Disk.isFile_iff.mpr ⟨content, read⟩
  have kept : delimiterFor request (override request settings) = .ok delimiter := accepted
  simp [load, present, found, kept, read, text]

/-- A run that is stopped while it reads ends with status 1 or with a fault. -/
theorem ending_of_load (failed : load world request = .error report) :
    report.ending ≠ .exit 0 := by
  rw [load] at failed
  split_ifs at failed
  · cases failed
    simp [Report.refused]
  simp only at failed
  split at failed
  · cases failed
    simp [Report.stopped]
  split at failed
  · cases failed
    simp [Report.refused]
  split at failed
  · cases failed
    simp [Report.stopped]
  split at failed
  · cases failed
    simp [Report.stopped]
  · cases failed

end Reading

/-! Putting the code on the disk. -/

/-- What a build does to the disk. -/
def placed (world : World) (dir : CodeText) (file code : String) : Disk.Change :=
  world.disk.replaceFolder world.cwd (Path.onDisk dir)
    (Path.child (Path.onDisk dir) (outputName file)) code.toUTF8

/-- How a build ends that came to the disk. -/
def endingOf (change : Disk.Change) : Ending :=
  match change.fault with
  | some fault => .fault (.disk fault)
  | none => .exit 0

/-- What a build makes: code that has been compiled, and reformatted if that is wanted. -/
def Makes (world : World) (request : Request) (noFormat : Bool) (settings : Settings)
    (code : String) : Prop :=
  ∃ delimiter source plain, Reads world request settings delimiter source ∧
    compile delimiter request.file source = .ok plain ∧
    if (settings.format && !noFormat) = true then
      reformatted? world.runner settings.formatter plain = some code
    else plain = code

section Placing

variable {world : World} {request : Request} {settings : Settings} {code : String}
variable {arguments : List String} {verbosity : Nat} {outDir : Option String} {noFormat : Bool}

theorem place_fst (world : World) (dir : CodeText) (file code : String) (trace : Trace) :
    (place world dir file code trace).1 = placed world dir file code :=
  Disk.placeAt_eq world dir.text (Path.onDisk dir) _ code trace

/-- What a build comes to once its code is ready. -/
theorem runBuild_of_finalCode {loaded : Loaded} {trace : Trace}
    (ready : finalCode world request loaded (loaded.settings.format && !noFormat) =
      .ok (code, trace)) :
    (runBuild world request loaded outDir noFormat).2 =
      (placed world (buildDir loaded.settings outDir) request.file code).disk ∧
    (runBuild world request loaded outDir noFormat).1.ending =
      endingOf (placed world (buildDir loaded.settings outDir) request.file code) := by
  rw [runBuild, ready, ← place_fst world _ _ _ trace, endingOf]
  simp only
  cases (place world (buildDir loaded.settings outDir) request.file code trace).1.fault with
  | none => exact ⟨rfl, rfl⟩
  | some fault => exact ⟨rfl, rfl⟩

theorem run_eq (world : World) (asked : readArguments arguments = .run verbosity request) :
    run world arguments =
      (runRequest world request).1.result verbosity (runRequest world request).2 := by
  rw [run, asked]

/-- A build that makes its code comes to the disk. -/
theorem run_of_makes (asked : readArguments arguments = .run verbosity request)
    (action : request.action = .build outDir noFormat)
    (makes : Makes world request noFormat settings code) :
    (run world arguments).disk =
      (placed world (buildDir settings outDir) request.file code).disk ∧
    (run world arguments).ending =
      endingOf (placed world (buildDir settings outDir) request.file code) := by
  obtain ⟨delimiter, source, plain, reads, compiled, final⟩ := makes
  obtain ⟨before, loaded⟩ := load_of_reads reads
  have ready : ∃ trace,
      finalCode world request ⟨source, override request settings, delimiter, before⟩
        (settings.format && !noFormat) = .ok (code, trace) :=
    finalCode_eq_ok_iff.mpr ⟨plain, compiled, final⟩
  obtain ⟨trace, ready⟩ := ready
  rw [run_eq world asked, runRequest, loaded]
  simp only [action]
  exact runBuild_of_finalCode ready

/-- What a request can do to the disk: nothing, or what a build does that makes its code. -/
theorem runRequest_cases (world : World) (request : Request) :
    ((runRequest world request).2 = world.disk ∧
      ∀ outDir noFormat, request.action = .build outDir noFormat →
        (runRequest world request).1.ending ≠ .exit 0) ∨
    ∃ outDir noFormat settings code, request.action = .build outDir noFormat ∧
      Makes world request noFormat settings code := by
  rw [runRequest]
  cases read : load world request with
  | error report => exact Or.inl ⟨rfl, fun _ _ _ => ending_of_load read⟩
  | ok loaded =>
    simp only
    cases action : request.action with
    | emit format => exact Or.inl ⟨rfl, by simp⟩
    | tokens json maxItems => exact Or.inl ⟨rfl, by simp⟩
    | ast json maxItems => exact Or.inl ⟨rfl, by simp⟩
    | build outDir noFormat =>
      simp only
      cases ready : finalCode world request loaded (loaded.settings.format && !noFormat) with
      | error report =>
        refine Or.inl ?_
        rw [runBuild, ready]
        exact ⟨rfl, fun _ _ _ => ending_of_finalCode ready⟩
      | ok final =>
        obtain ⟨code, trace⟩ := final
        obtain ⟨settings, reads, same⟩ := reads_of_load read
        obtain ⟨plain, compiled, final⟩ := finalCode_eq_ok_iff.mp ⟨trace, ready⟩
        rw [same] at final
        exact Or.inr ⟨outDir, noFormat, settings, code, rfl, _, _, plain, reads, compiled, final⟩

theorem run_cases (world : World) (asked : readArguments arguments = .run verbosity request) :
    ((run world arguments).disk = world.disk ∧
      ∀ outDir noFormat, request.action = .build outDir noFormat →
        (run world arguments).ending ≠ .exit 0) ∨
    ∃ outDir noFormat settings code, request.action = .build outDir noFormat ∧
      Makes world request noFormat settings code ∧
      (run world arguments).disk =
        (placed world (buildDir settings outDir) request.file code).disk ∧
      (run world arguments).ending =
        endingOf (placed world (buildDir settings outDir) request.file code) := by
  rcases runRequest_cases world request with
    kept | ⟨outDir, noFormat, settings, code, action, makes⟩
  · refine Or.inl ?_
    rw [run_eq world asked]
    exact kept
  · exact Or.inr ⟨outDir, noFormat, settings, code, action, makes, run_of_makes asked action makes⟩

theorem endingOf_cases (change : Disk.Change) :
    endingOf change = .exit 0 ∨ ∃ fault, endingOf change = .fault (.disk fault) := by
  rw [endingOf]
  split
  · exact Or.inr ⟨_, rfl⟩
  · exact Or.inl rfl

/-- Only a run that ends with status 0 or with a fault of the disk changes the disk. -/
theorem disk_of_ending (world : World) (arguments : List String)
    (early : (run world arguments).ending ≠ .exit 0 ∧
      ∀ fault, (run world arguments).ending ≠ .fault (.disk fault)) :
    (run world arguments).disk = world.disk := by
  cases asked : readArguments arguments with
  | help page => simp [run, asked, written]
  | version => simp [run, asked, written]
  | nothing => simp [run, asked, written]
  | refused page message => simp [run, asked, written]
  | run verbosity request =>
    rcases run_cases world asked with ⟨kept, -⟩ | ⟨_, _, settings, code, -, -, -, ending⟩
    · exact kept
    · rw [ending] at early
      rcases endingOf_cases (placed world (buildDir settings _) request.file code) with
        success | ⟨fault, failed⟩
      · exact absurd success early.1
      · exact absurd failed (early.2 fault)

/-- A run that fails before its code is ready leaves the disk as it was, and so does every run that
is no build. -/
theorem failed_run_keeps_disk (world : World) (arguments : List String) :
    (∀ status, status ≠ 0 → (run world arguments).ending = .exit status →
      (run world arguments).disk = world.disk) ∧
    (∀ fault, (∀ reason, fault ≠ .disk reason) → (run world arguments).ending = .fault fault →
      (run world arguments).disk = world.disk) ∧
    ∀ verbosity request, readArguments arguments = .run verbosity request →
      (∀ report, load world request = .error report →
        (run world arguments).ending = report.ending ∧
        (run world arguments).disk = world.disk) ∧
      (∀ loaded outDir noFormat report, load world request = .ok loaded →
        request.action = .build outDir noFormat →
        finalCode world request loaded (loaded.settings.format && !noFormat) = .error report →
        (run world arguments).ending = report.ending ∧
        (run world arguments).disk = world.disk) ∧
      ((∀ outDir noFormat, request.action ≠ .build outDir noFormat) →
        (run world arguments).disk = world.disk) := by
  refine ⟨?_, ?_, ?_⟩
  · intro status bad ending
    apply disk_of_ending
    rw [ending]
    exact ⟨by simpa using bad, by simp⟩
  · intro fault other ending
    apply disk_of_ending
    rw [ending]
    exact ⟨by simp, by simpa using other⟩
  intro verbosity request asked
  refine ⟨?_, ?_, ?_⟩
  · intro report failed
    rw [run_eq world asked, runRequest, failed]
    exact ⟨rfl, rfl⟩
  · intro loaded outDir noFormat report read action failed
    rw [run_eq world asked, runRequest, read]
    simp only [action, runBuild, failed]
    exact ⟨rfl, rfl⟩
  · intro other
    rcases run_cases world asked with ⟨kept, -⟩ | ⟨outDir, noFormat, _, _, action, -⟩
    · exact kept
    · exact absurd action (other outDir noFormat)

end Placing

/-- A source that is no text, beside an older build. -/
def brokenSource : World where
  disk := ⟨[(["a.xo"], .file ⟨#[255]⟩), (["build"], .folder), (["build", "a.js"], .file ⟨#[49]⟩)]⟩
  cwd := []
  colour := false
  runner := fun _ => .notFound
  reader := .standard id ""

theorem broken_source_keeps_build :
    (run brokenSource ["build", "a.xo"]).ending = .fault .notText ∧
    (run brokenSource ["build", "a.xo"]).disk = brokenSource.disk ∧
    (run brokenSource ["build", "b.xo"]).ending = .exit 1 ∧
    (run brokenSource ["build", "b.xo"]).disk = brokenSource.disk := by
  have broken : (run brokenSource ["build", "a.xo"]).ending = .fault .notText := by decide
  have missing : (run brokenSource ["build", "b.xo"]).ending = .exit 1 := by decide
  exact ⟨broken, (failed_run_keeps_disk _ _).2.1 .notText (by simp) broken, missing,
    (failed_run_keeps_disk _ _).1 1 (by simp) missing⟩

/-! What a run cannot take away. -/

section Keeping

variable {world : World} {request : Request} {dir : CodeText} {file code : String}
variable {p source : List CodeText}

/-- What stands outside of the folder of a build is kept, and if a file stands in its place then
everything is. -/
theorem get?_placed (there : (world.disk.get? p).isSome = true)
    (safe : Path.absolute world.cwd (Path.onDisk dir) <+: p →
      ∃ content, world.disk.get? (Path.absolute world.cwd (Path.onDisk dir)) =
        some (.file content)) :
    (placed world dir file code).disk.get? p = world.disk.get? p := by
  by_cases inside : Path.absolute world.cwd (Path.onDisk dir) <+: p
  · obtain ⟨content, isFile⟩ := safe inside
    exact Disk.get?_replaceFolder_of_file (outputName_isName file) isFile there
  · exact Disk.get?_replaceFolder_outside (outputName_isName file) inside there

/-- A build cannot destroy its source unless the source lies below the folder that it builds and the
build gets as far as the disk. -/
theorem build_keeps_source (world : World) (arguments : List String) {verbosity : Nat}
    {outDir : Option String} {noFormat : Bool}
    (asked : readArguments arguments = .run verbosity request)
    (action : request.action = .build outDir noFormat)
    (isFile : world.disk.isFile world.cwd request.file = true)
    (safe : (∃ status, status ≠ 0 ∧ (run world arguments).ending = .exit status) ∨
      ∀ settings code, Makes world request noFormat settings code →
        Path.absolute world.cwd (Path.onDisk (buildDir settings outDir)) <+:
          Path.absolute world.cwd request.file →
        Path.absolute world.cwd (Path.onDisk (buildDir settings outDir)) =
          Path.absolute world.cwd request.file) :
    ∃ content, world.disk.read world.cwd request.file = .ok content ∧
      (run world arguments).disk.get? (Path.absolute world.cwd request.file) =
        some (.file content) ∧
      (Path.up ∉ Path.names request.file →
        (run world arguments).disk.read world.cwd request.file = .ok content) := by
  obtain ⟨content, read⟩ := Disk.isFile_iff.mp isFile
  have found := Disk.read_eq_ok_iff.mp read
  have here := Disk.get?_of_read read
  have kept : ∀ q, q <+: Path.absolute world.cwd request.file →
      (world.disk.get? q).isSome = true →
      (run world arguments).disk.get? q = world.disk.get? q := by
    intro q front there
    rcases safe with ⟨status, bad, ending⟩ | safe
    · rw [disk_of_ending world arguments]
      rw [ending]
      exact ⟨by simpa using bad, by simp⟩
    rcases run_cases world asked with ⟨kept, -⟩ | ⟨_, _, settings, code, same, makes, placed, -⟩
    · rw [kept]
    · rw [action] at same
      cases same
      rw [placed]
      refine get?_placed there fun inside => ⟨content, ?_⟩
      rw [safe settings code makes (inside.trans front), here]
  refine ⟨content, read, ?_, ?_⟩
  · rw [kept _ List.prefix_rfl (by rw [here]; rfl), here]
  · intro level
    exact Disk.read_eq_ok_iff.mpr (Disk.find_of_kept level found kept)

end Keeping

/-- A project with a source in a folder of its own, and an older build. -/
def project : World where
  disk := ⟨[(["p"], .folder), (["p", "src"], .folder), (["p", "src", "a.xo"], .file ⟨#[55]⟩),
    (["p", "out"], .folder), (["p", "out", "old.js"], .file ⟨#[49]⟩)]⟩
  cwd := ["p"]
  colour := false
  runner := fun _ => .notFound
  reader := .standard id ""

theorem compile_seven (delimiter : Delimiter) (file : String) :
    compile delimiter file "7" = .ok "7" := by
  have lexed : Lexed delimiter file [] "7".toList [⟨.number, "7", ⟨1, 1, file⟩⟩] :=
    .spelled (.number (by decide) .done ⟨stopsAt_nil _, by simp⟩) (.done (by simp [Gap]))
  have parsed := parse_eq_ok_iff.mpr ⟨_, _, lexed, .single (.number rfl) .empty, rfl⟩
  rw [compile_eq_map, parsed]
  rfl

theorem makes_seven {world : World} {request : Request} {settings : Settings}
    {delimiter : Delimiter}
    (found : (loadSettings world request (folderOf world.cwd request.file)).1 = .ok settings)
    (accepted : delimiterFor request settings = .ok delimiter)
    (read : world.disk.read world.cwd request.file = .ok ⟨#[55]⟩) :
    Makes world request true settings "7" := by
  have text : fileText? ⟨#[55]⟩ = some "7" := by decide
  refine ⟨delimiter, "7", "7", ⟨found, accepted, _, read, text⟩, compile_seven _ _, ?_⟩
  rw [Bool.not_true, Bool.and_false]
  exact rfl

/-- A source beside the folder that is built is kept, and so is one that stands in its place. -/
theorem source_beside_build_kept :
    ∃ content, project.disk.read project.cwd "src/a.xo" = .ok content ∧
      (run project ["build", "src/a.xo", "-o", "out"]).disk.get? ["p", "src", "a.xo"] =
        some (.file content) ∧
      (run project ["build", "src/a.xo", "-o", "src/a.xo"]).disk.get? ["p", "src", "a.xo"] =
        some (.file content) := by
  have asked : readArguments ["build", "src/a.xo", "-o", "out"] =
      .run 0 ⟨"src/a.xo", none, none, none, .build (some "out") false⟩ := by decide
  have asked' : readArguments ["build", "src/a.xo", "-o", "src/a.xo"] =
      .run 0 ⟨"src/a.xo", none, none, none, .build (some "src/a.xo") false⟩ := by decide
  have outside : ¬ Path.absolute project.cwd "out" <+: Path.absolute project.cwd "src/a.xo" := by
    decide
  have known : ∀ settings dir, dir ≠ "" →
      Path.onDisk (buildDir settings (some dir)) = .ofString dir := by
    intro settings dir nonempty
    simp [buildDir, nonempty]
  obtain ⟨content, read, kept, -⟩ :=
    build_keeps_source project _ asked rfl (by decide) (Or.inr fun settings code _ inside => by
      rw [known settings "out" (by decide)] at inside
      exact absurd inside outside)
  obtain ⟨content', read', kept', -⟩ :=
    build_keeps_source project _ asked' rfl (by decide) (Or.inr fun settings code _ _ => by
      rw [known settings "src/a.xo" (by decide)])
  obtain rfl := Except.ok.inj (read.symm.trans read')
  exact ⟨content, read, kept, kept'⟩

/-- A source that lies in the folder that is built is gone after a success. -/
theorem source_in_build_folder_lost :
    project.disk.isFile project.cwd "src/a.xo" = true ∧
    (run project ["build", "src/a.xo", "-o", "src", "--no-format"]).ending = .exit 0 ∧
    (run project ["build", "src/a.xo", "-o", "src", "--no-format"]).disk.get?
      ["p", "src", "a.xo"] = none := by
  have asked : readArguments ["build", "src/a.xo", "-o", "src", "--no-format"] =
      .run 0 ⟨"src/a.xo", none, none, none, .build (some "src") true⟩ := by decide
  have makes : Makes project ⟨"src/a.xo", none, none, none, .build (some "src") true⟩ true .default
      "7" := makes_seven (by decide) rfl (by decide)
  obtain ⟨disk, ending⟩ := run_of_makes asked rfl makes
  rw [disk, ending]
  exact ⟨by decide, by decide, by decide⟩

end XoLang.Command
