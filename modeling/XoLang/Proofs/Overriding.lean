import Mathlib.Algebra.Group.Int.Defs
import XoLang.Proofs.Agreement
import XoLang.Proofs.Fallback
import XoLang.Proofs.SameValues
import XoLang.Proofs.Texts
import XoLang.Proofs.Twins

/-!
# Settings that do not matter

A run does not look at settings that the command line overrides or that its command has no use for.
So two versions of a settings file that agree on the other settings give the same run, as long as
both can be loaded: loading turns every value into its type, also one that does not matter, and a
value without a text stops it.
-/

namespace XoLang

namespace Settings

/-- A file that a path leads to holds a mapping with these entries. -/
def HoldsMapping (reader : Reader) (disk : Disk) (cwd : List CodeText) (path : CodeText)
    (document : Document) (entries : List (Datum × Datum)) : Prop :=
  ∃ text, HoldsText disk cwd path text ∧ reader.read path text = .ok document ∧
    document.entries? = some entries

/-- The names of the settings. -/
def names : List String := ["quote", "build_dir", "format", "formatter", "output_format"]

end Settings

namespace Command

/-- Whether a command has no use for a setting. -/
def Action.Ignores : Action → String → Prop
  | .build outDir noFormat, name =>
    (name = "build_dir" ∧ ∃ dir, outDir = some dir ∧ dir ≠ "") ∨
      ((name = "format" ∨ name = "formatter") ∧ noFormat = true)
  | .emit format, name =>
    name = "build_dir" ∨ name = "format" ∨ (name = "formatter" ∧ format = false)
  | .tokens _ _, name | .ast _ _, name => name = "build_dir" ∨ name = "format" ∨ name = "formatter"

/-- Whether a run overrides an entry of the settings or does not use it. -/
def Request.Ignores (request : Request) (name : String) : Prop :=
  (name = "quote" ∧ request.quote ≠ none) ∨
    (name = "output_format" ∧ request.outputFormat ≠ none) ∨
    request.action.Ignores name ∨ name ∉ Settings.names

/-- Entries of two documents with the same values under all names that a run does not ignore. -/
def Request.Agree (request : Request) (a b : Document) (entries entries' : List (Datum × Datum)) :
    Prop :=
  ∀ name, ¬ request.Ignores name →
    Option.Rel (a.Same b) (Datum.entry? name entries) (Datum.entry? name entries')

/-- The path of the settings file of a run. -/
def selected? (world : World) (request : Request) : Option CodeText :=
  if request.config = some .nothing then none
  else Settings.selected? world.disk world.cwd request.configPath (folderOf world.cwd request.file)

/-- Runs that end alike, write and start the same and leave the same disk but for one place. -/
structure SameRun (place : List CodeText) (one other : Result) : Prop where
  ending : one.ending = other.ending
  stdout : one.stdout = other.stdout
  stderr : one.stderr = other.stderr
  started : one.started = other.started
  disk : ∀ p, p ≠ place → one.disk.get? p = other.disk.get? p

end Command

/-! Settings from entries that agree. -/

namespace Settings

variable {document document' : Document} {entries entries' : List (Datum × Datum)}

theorem textEntry_of_same {name : String} {fallback : CodeText}
    (same : Option.Rel (document.Same document') (Datum.entry? name entries)
      (Datum.entry? name entries')) :
    textEntry document entries name fallback = textEntry document' entries' name fallback := by
  rw [textEntry, textEntry]
  generalize Datum.entry? name entries = value at same
  generalize Datum.entry? name entries' = value' at same
  cases same with
  | none => rfl
  | some same => exact same.text_eq

theorem wordsEntry_of_same
    (same : Option.Rel (document.Same document') (Datum.entry? "formatter" entries)
      (Datum.entry? "formatter" entries')) :
    wordsEntry document entries = wordsEntry document' entries' := by
  rw [wordsEntry, wordsEntry]
  generalize Datum.entry? "formatter" entries = value at same
  generalize Datum.entry? "formatter" entries' = value' at same
  cases same with
  | none => rfl
  | some same => exact formatterWords_of_same same

theorem truth_of_same {x y : Option Datum} (same : Option.Rel (document.Same document') x y) :
    x.map document.truth = y.map document'.truth := by
  cases same with
  | none => rfl
  | some same => rw [Option.map_some, Option.map_some, same.truth_eq]

end Settings

namespace Command

variable {world : World} {other : Disk} {request : Request} {place : List CodeText}
variable {document document' : Document} {entries entries' : List (Datum × Datum)} {s t : Settings}

/-- Settings that a run cannot tell apart. -/
structure Indifferent (request : Request) (s t : Settings) : Prop where
  quote : request.quote = none → s.quote = t.quote
  outputFormat : request.outputFormat = none → s.outputFormat = t.outputFormat
  buildDir : ∀ outDir noFormat, request.action = .build outDir noFormat →
    buildDir s outDir = buildDir t outDir
  format : ∀ outDir, request.action = .build outDir false → s.format = t.format
  formatter : (∃ outDir, request.action = .build outDir false) ∨ request.action = .emit true →
    s.formatter = t.formatter

/-- Entries that agree where a run looks make settings that it cannot tell apart. -/
theorem indifferent_of_agree (agree : request.Agree document document' entries entries')
    (made : Settings.ofEntries document entries = .ok s)
    (made' : Settings.ofEntries document' entries' = .ok t) : Indifferent request s t := by
  obtain ⟨quote, dir, ⟨words, command, formatter⟩, ⟨form, formText, outputFormat⟩, format⟩ :=
    Settings.ofEntries_eq_ok_iff.mp made
  obtain ⟨quote', dir', ⟨words', command', formatter'⟩, ⟨form', formText', outputFormat'⟩,
      format'⟩ :=
    Settings.ofEntries_eq_ok_iff.mp made'
  constructor
  · intro free
    have used : ¬ request.Ignores "quote" := by
      cases action : request.action <;>
        simp [Request.Ignores, Action.Ignores, Settings.names, free, action]
    rw [Settings.textEntry_of_same (agree "quote" used), quote'] at quote
    exact (Except.ok.inj quote).symm
  · intro free
    have used : ¬ request.Ignores "output_format" := by
      cases action : request.action <;>
        simp [Request.Ignores, Action.Ignores, Settings.names, free, action]
    rw [Settings.textEntry_of_same (agree "output_format" used), formText'] at formText
    rw [outputFormat, outputFormat', Except.ok.inj formText]
  · intro outDir noFormat action
    by_cases given : ∃ path, outDir = some path ∧ path ≠ ""
    · obtain ⟨path, rfl, nonempty⟩ := given
      simp [buildDir, nonempty]
    · have used : ¬ request.Ignores "build_dir" := by
        simpa [Request.Ignores, Action.Ignores, Settings.names, action] using given
      rw [Settings.textEntry_of_same (agree "build_dir" used), dir'] at dir
      simp only [buildDir, Except.ok.inj dir]
  · intro outDir action
    have used : ¬ request.Ignores "format" := by
      simp [Request.Ignores, Action.Ignores, Settings.names, action]
    rw [format, format', Settings.truth_of_same (agree "format" used)]
  · intro wanted
    have used : ¬ request.Ignores "formatter" := by
      rcases wanted with ⟨outDir, action⟩ | action <;>
        simp [Request.Ignores, Action.Ignores, Settings.names, action]
    rw [Settings.wordsEntry_of_same (agree "formatter" used), command'] at command
    rw [formatter, formatter', Except.ok.inj command]

/-! Runs with settings that cannot be told apart. -/

section Runs

variable {loaded : Loaded}

theorem tokensOf_indifferent (other : Disk) (form : s.outputFormat = t.outputFormat) :
    tokensOf world request { loaded with settings := s } =
      tokensOf { world with disk := other } request { loaded with settings := t } := by
  simp only [tokensOf, diagnose, form]

theorem treeOf_indifferent (other : Disk) (form : s.outputFormat = t.outputFormat) :
    treeOf world request { loaded with settings := s } =
      treeOf { world with disk := other } request { loaded with settings := t } := by
  rw [treeOf, treeOf, tokensOf_indifferent other form]
  simp only [diagnose, form]

theorem finalCode_indifferent {wanted : Bool} (other : Disk)
    (form : s.outputFormat = t.outputFormat)
    (command : wanted = true → s.formatter = t.formatter) :
    finalCode world request { loaded with settings := s } wanted =
      finalCode { world with disk := other } request { loaded with settings := t } wanted := by
  rw [finalCode, finalCode, codeOf, codeOf, treeOf_indifferent other form]
  split
  · rfl
  · split_ifs with wanted
    · simp only [reformat, command wanted]
    · rfl

theorem runBuild_indifferent {outDir : Option String} {noFormat : Bool}
    (twins : world.disk.Twins place other) (form : s.outputFormat = t.outputFormat)
    (format : noFormat = false → s.format = t.format ∧ s.formatter = t.formatter)
    (dir : buildDir s outDir = buildDir t outDir) :
    (runBuild world request { loaded with settings := s } outDir noFormat).1 =
        (runBuild { world with disk := other } request { loaded with settings := t } outDir
          noFormat).1 ∧
      (runBuild world request { loaded with settings := s } outDir noFormat).2.Twins place
        (runBuild { world with disk := other } request { loaded with settings := t } outDir
          noFormat).2 := by
  have wanted : (s.format && !noFormat) = (t.format && !noFormat) := by
    cases noFormat with
    | true => simp
    | false => rw [(format rfl).1]
  have final : finalCode world request { loaded with settings := s } (s.format && !noFormat) =
      finalCode { world with disk := other } request { loaded with settings := t }
        (t.format && !noFormat) := by
    rw [wanted]
    refine finalCode_indifferent other form fun wanted => (format ?_).2
    simp only [Bool.and_eq_true, Bool.not_eq_true'] at wanted
    exact wanted.2
  rw [runBuild, runBuild]
  simp only [final, dir]
  split
  · exact ⟨rfl, twins⟩
  · rename_i code trace _
    obtain ⟨change, traces⟩ := place_twins twins (buildDir t outDir) request.file code trace
    simp only [change.fault, traces]
    split
    · exact ⟨rfl, change.disk⟩
    · exact ⟨by simp only [builtText, form], change.disk⟩

theorem outputFormat_override (same : Indifferent request s t) :
    (override request s).outputFormat = (override request t).outputFormat := by
  cases given : request.outputFormat with
  | some form => simp [override, given]
  | none => simp [override, given, same.outputFormat given]

theorem delimiterFor_indifferent (same : Indifferent request s t) :
    delimiterFor request (override request s) = delimiterFor request (override request t) := by
  cases given : request.quote with
  | some value => cases value <;> simp only [delimiterFor, given]
  | none => simp only [delimiterFor, given, Settings.delimiter, override, same.quote given]

/-- Reading a source with settings that cannot be told apart fails alike, or gives the same but for
the settings. -/
theorem load_indifferent {log : List LogRecord} (twins : world.disk.Twins place other)
    (apart : world.disk.resolve world.cwd request.file ≠ .ok place)
    (present : world.disk.isFile world.cwd request.file = true) (same : Indifferent request s t)
    (found : loadSettings world request (folderOf world.cwd request.file) = (.ok s, log))
    (found' : loadSettings { world with disk := other } request
      (folderOf world.cwd request.file) = (.ok t, log)) :
    (∃ report, load world request = .error report ∧
      load { world with disk := other } request = .error report) ∨
    ∃ loaded : Loaded, load world request = .ok { loaded with settings := override request s } ∧
      load { world with disk := other } request =
        .ok { loaded with settings := override request t } := by
  have present' : other.isFile world.cwd request.file = true := by rw [← twins.isFile_eq, present]
  simp only [load, present, present', found, found', delimiterFor_indifferent same,
    twins.read_eq apart]
  cases delimiterFor request (override request t) with
  | error fault => exact Or.inl ⟨_, rfl, rfl⟩
  | ok delimiter =>
    cases other.read world.cwd request.file with
    | error fault => exact Or.inl ⟨_, rfl, rfl⟩
    | ok content =>
      simp only
      cases fileText? content with
      | none => exact Or.inl ⟨_, rfl, rfl⟩
      | some source => exact Or.inr ⟨⟨source, s, delimiter, _⟩, rfl, rfl⟩

/-- Settings that cannot be told apart give the same run. -/
theorem runRequest_indifferent {log : List LogRecord} (twins : world.disk.Twins place other)
    (apart : world.disk.resolve world.cwd request.file ≠ .ok place)
    (present : world.disk.isFile world.cwd request.file = true) (same : Indifferent request s t)
    (found : loadSettings world request (folderOf world.cwd request.file) = (.ok s, log))
    (found' : loadSettings { world with disk := other } request
      (folderOf world.cwd request.file) = (.ok t, log)) :
    (runRequest world request).1 = (runRequest { world with disk := other } request).1 ∧
      (runRequest world request).2.Twins place
        (runRequest { world with disk := other } request).2 := by
  have form := outputFormat_override same
  rcases load_indifferent twins apart present same found found' with
    ⟨report, failed, failed'⟩ | ⟨loaded, read, read'⟩
  · rw [runRequest, runRequest, failed, failed']
    exact ⟨rfl, twins⟩
  rw [runRequest, runRequest, read, read']
  cases action : request.action with
  | build outDir noFormat =>
    refine runBuild_indifferent twins form ?_ (same.buildDir outDir noFormat action)
    rintro rfl
    exact ⟨same.format outDir action, same.formatter (Or.inl ⟨outDir, action⟩)⟩
  | emit format =>
    refine ⟨?_, twins⟩
    simp only [runEmit]
    rw [finalCode_indifferent other form]
    rintro rfl
    exact same.formatter (Or.inr action)
  | tokens json maxItems =>
    refine ⟨?_, twins⟩
    simp only [runTokens]
    rw [tokensOf_indifferent other form]
  | ast json maxItems =>
    refine ⟨?_, twins⟩
    simp only [runAst]
    rw [treeOf_indifferent other form]

end Runs

/-! Versions of the settings file. -/

section Versions

variable {path : CodeText}

/-- Disks that agree but for the files that a path leads to. -/
theorem twins_of_holds (leads : world.disk.resolve world.cwd path = .ok place)
    (others : ∀ p, p ≠ place → world.disk.get? p = other.get? p)
    (holds : Settings.HoldsMapping world.reader world.disk world.cwd path document entries)
    (holds' : Settings.HoldsMapping world.reader other world.cwd path document' entries') :
    world.disk.Twins place other := by
  obtain ⟨-, -, rfl, -⟩ := Disk.resolve_eq_ok_iff.mp leads
  obtain ⟨_, ⟨content, read, -⟩, -⟩ := holds
  obtain ⟨_, ⟨content', read', -⟩, -⟩ := holds'
  refine ⟨fun p => ?_, others⟩
  by_cases here : p = Path.absolute world.cwd path
  · rw [here, Disk.get?_of_read read, Disk.get?_of_read read']
    rfl
  · rw [others p here]

theorem selected?_twins (twins : world.disk.Twins place other) :
    selected? { world with disk := other } request = selected? world request := by
  simp only [selected?, Settings.selected?, twins.find?_eq]

/-- Loading a mapping makes settings of its entries, and tells so. -/
theorem loadSettings_of_holds (selected : selected? world request = some path)
    (holds : Settings.HoldsMapping world.reader world.disk world.cwd path document entries) :
    loadSettings world request (folderOf world.cwd request.file) =
      ((Settings.ofEntries document entries).mapError Fault.value,
        [Settings.record .debug ("loaded config from " ++ path.text)]) := by
  obtain ⟨text, holds, read, mapping⟩ := holds
  rw [selected?] at selected
  split_ifs at selected with nothing
  rw [loadSettings, if_neg nothing, Settings.load_of_selected selected,
    Settings.ofFile_of_holds holds, Settings.ofText, read]
  simp only [mapping]
  cases Settings.ofEntries document entries <;> rfl

theorem ending_of_load_settings {report : Report} (failed : load world request = .error report)
    (found : (loadSettings world request (folderOf world.cwd request.file)).1 = .ok s)
    (fault : ValueFault) : report.ending ≠ .fault (.value fault) := by
  rw [load] at failed
  split_ifs at failed
  · cases failed
    simp [Report.refused]
  simp only [found] at failed
  split at failed
  · cases failed
    simp [Report.refused]
  split at failed
  · cases failed
    simp [Report.stopped]
  split at failed
  · cases failed
    simp [Report.stopped]
  · cases failed

/-- A run whose settings have been loaded is not stopped by a value. -/
theorem ending_of_settings
    (found : (loadSettings world request (folderOf world.cwd request.file)).1 = .ok s)
    (fault : ValueFault) : (runRequest world request).1.ending ≠ .fault (.value fault) := by
  rcases stages world request with ⟨report, early⟩ | ⟨e, report, unparsed⟩ | ⟨loaded, tree, parsed⟩
  · rw [early.runRequest_eq]
    cases early with
    | unread failed => exact ending_of_load_settings failed found fault
    | unlexed read failed =>
      simp [ending_of_tokensOf failed]
  · cases action : request.action with
    | tokens json maxItems => simp [unparsed.tokens_shown action]
    | _ =>
      rw [unparsed.runRequest_eq (by simp [action])]
      simp [unparsed.ending_eq]
  · rcases parsed.ending_cases with ending | ⟨failure, ending⟩ | ⟨fault, ending⟩ <;> simp [ending]

/-- Settings that cannot be made of a mapping stop a run whose source is there. -/
theorem runRequest_of_fault {fault : ValueFault}
    (present : world.disk.isFile world.cwd request.file = true)
    (selected : selected? world request = some path)
    (holds : Settings.HoldsMapping world.reader world.disk world.cwd path document entries)
    (failed : Settings.ofEntries document entries = .error fault) :
    runRequest world request =
      (.stopped (.value fault) ⟨[Settings.record .debug ("loaded config from " ++ path.text)], []⟩,
        world.disk) := by
  have found := loadSettings_of_holds selected holds
  rw [failed] at found
  simp only [runRequest, load, present, found]
  rfl

/-- A run that a value has stopped ends differently from one whose settings have been loaded. -/
theorem endings_differ {calm : World} {fault : ValueFault} {trace : Trace} {disk : Disk}
    {log : List LogRecord}
    (stopped : runRequest world request = (.stopped (.value fault) trace, disk))
    (found : loadSettings calm request (folderOf calm.cwd request.file) = (.ok s, log)) :
    (runRequest world request).1.ending ≠ (runRequest calm request).1.ending := by
  intro same
  rw [stopped] at same
  exact ending_of_settings (congrArg Prod.fst found) fault same.symm

theorem runRequest_of_absent (absent : world.disk.isFile world.cwd request.file = false) :
    runRequest world request =
      (.refused ("File not found: " ++ request.file) .empty, world.disk) := by
  simp only [runRequest, load, absent]
  rfl

theorem result_ending (report : Report) (verbosity : Nat) (disk : Disk) :
    (report.result verbosity disk).ending = report.ending := rfl

theorem sameRun_of_reports {report report' : Report} {disk disk' : Disk}
    (reports : report = report') (twins : disk.Twins place disk') (verbosity : Nat) :
    SameRun place (report.result verbosity disk) (report'.result verbosity disk') := by
  subst reports
  exact ⟨rfl, rfl, rfl, rfl, twins.elsewhere⟩

end Versions

/-- Two versions of the settings file that agree on what a run looks at give the same run, whatever
they say otherwise, exactly when both or neither can be loaded, or there is no source. -/
theorem overridden_settings_ignored {arguments : List String} {verbosity : Nat} {path : CodeText}
    (asked : readArguments arguments = .run verbosity request)
    (selected : selected? world request = some path)
    (leads : world.disk.resolve world.cwd path = .ok place)
    (apart : world.disk.resolve world.cwd request.file ≠ .ok place)
    (others : ∀ p, p ≠ place → world.disk.get? p = other.get? p)
    (holds : Settings.HoldsMapping world.reader world.disk world.cwd path document entries)
    (holds' : Settings.HoldsMapping world.reader other world.cwd path document' entries')
    (agree : request.Agree document document' entries entries') :
    SameRun place (run world arguments) (run { world with disk := other } arguments) ↔
      world.disk.isFile world.cwd request.file = false ∨
        (Settings.HasTexts document entries ↔ Settings.HasTexts document' entries') := by
  have twins := twins_of_holds leads others holds holds'
  have selected' : selected? { world with disk := other } request = some path := by
    rw [selected?_twins twins, selected]
  rw [run_eq world asked, run_eq _ asked]
  cases present : world.disk.isFile world.cwd request.file with
  | false =>
    have absent : other.isFile world.cwd request.file = false := by rw [← twins.isFile_eq, present]
    rw [runRequest_of_absent present, runRequest_of_absent absent]
    exact iff_of_true (sameRun_of_reports rfl twins verbosity) (Or.inl rfl)
  | true =>
    have present' : other.isFile world.cwd request.file = true := by rw [← twins.isFile_eq, present]
    have found := loadSettings_of_holds selected holds
    have found' := loadSettings_of_holds selected' holds'
    rw [← Settings.ofEntries_isOk_iff, ← Settings.ofEntries_isOk_iff]
    cases made : Settings.ofEntries document entries with
    | ok s =>
      rw [made] at found
      cases made' : Settings.ofEntries document' entries' with
      | ok t =>
        rw [made'] at found'
        obtain ⟨reports, disks⟩ := runRequest_indifferent twins apart present
          (indifferent_of_agree agree made made') found found'
        exact iff_of_true (sameRun_of_reports reports disks verbosity) (Or.inr (by simp))
      | error fault =>
        have stopped := runRequest_of_fault present' selected' holds' made'
        exact iff_of_false (fun same => endings_differ stopped found same.ending.symm) (by simp)
    | error fault =>
      have stopped := runRequest_of_fault present selected holds made
      cases made' : Settings.ofEntries document' entries' with
      | ok t =>
        rw [made'] at found'
        exact iff_of_false (fun same => endings_differ stopped found' same.ending) (by simp)
      | error fault' =>
        have stopped' := runRequest_of_fault present' selected' holds' made'
        have faults : fault = fault' :=
          (Settings.fault_of_ofEntries made).trans (Settings.fault_of_ofEntries made').symm
        rw [stopped, stopped', faults]
        exact iff_of_true (sameRun_of_reports rfl twins verbosity) (Or.inr (by simp))

/-! A project whose settings file can hold any text. -/

/-- The disk of the project. -/
def projectDisk (settings : String) : Disk :=
  (Disk.mk [(["a.xo"], .file ⟨#[55]⟩)]).put [".xorc.yml"] (.file settings.toUTF8)

/-- The project, without a formatter. -/
def projectWith (settings : String) : World where
  disk := projectDisk settings
  cwd := []
  colour := false
  runner := fun _ => .notFound
  reader := .standard id ""

theorem get?_projectDisk (settings : String) (p : List CodeText) :
    (projectDisk settings).get? p =
      if p = [".xorc.yml"] then some (.file settings.toUTF8)
      else (Disk.mk [(["a.xo"], .file ⟨#[55]⟩)]).get? p :=
  Disk.get?_put (by simp)

theorem others_projectDisk (settings settings' : String) (p : List CodeText)
    (away : p ≠ [".xorc.yml"]) :
    (projectDisk settings).get? p = (projectDisk settings').get? p := by
  rw [get?_projectDisk, get?_projectDisk, if_neg away, if_neg away]

theorem twins_projectDisk (settings settings' : String) :
    (projectDisk settings).Twins [".xorc.yml"] (projectDisk settings') := by
  refine ⟨fun p => ?_, others_projectDisk settings settings'⟩
  rw [get?_projectDisk, get?_projectDisk]
  split_ifs <;> rfl

theorem resolve_projectDisk (settings : String) :
    (projectDisk settings).resolve [] "/.xorc.yml" = .ok [".xorc.yml"] ∧
      (projectDisk settings).resolve [] "a.xo" = .ok ["a.xo"] := by
  rw [(twins_projectDisk settings "").resolve_eq, (twins_projectDisk settings "").resolve_eq]
  exact ⟨by decide, by decide⟩

theorem selected?_projectWith (settings : String) {request : Request}
    (file : request.file = "a.xo") (config : request.config = none) :
    selected? (projectWith settings) request = some "/.xorc.yml" := by
  have found : Settings.find? (projectDisk "") [] (folderOf [] "a.xo") = some "/.xorc.yml" := by
    decide
  have nothing : ¬ request.config = some .nothing := by simp [config]
  have path : request.configPath = none := by simp [Request.configPath, config]
  rw [selected?, if_neg nothing, file, path]
  simp only [projectWith, Settings.selected?, (twins_projectDisk settings "").find?_eq, found]

theorem unifyNewlines_of_not_mem {cs : List Char} (plain : '\r' ∉ cs) :
    Text.unifyNewlines cs = cs := by
  induction cs with
  | nil => rfl
  | cons c cs ih =>
    rw [List.mem_cons, not_or] at plain
    rw [Text.unifyNewlines, if_neg (Ne.symm plain.1), ih plain.2]
    rintro rest same
    exact absurd same.symm plain.1

theorem holdsMapping_projectDisk {settings : String} {document : Document}
    {entries : List (Datum × Datum)} (plain : '\r' ∉ settings.toList)
    (read : Yaml.read id settings = .ok document) (mapping : document.entries? = some entries) :
    Settings.HoldsMapping (.standard id "") (projectDisk settings) [] "/.xorc.yml" document
      entries := by
  have found : (projectDisk settings).find [] "/.xorc.yml" = .ok (.file settings.toUTF8) := by
    rw [Disk.find, (resolve_projectDisk settings).1]
    simp [get?_projectDisk]
  have text : fileText? settings.toUTF8 = some settings := by
    have valid : settings.toUTF8.IsValidUTF8 := settings.isValidUTF8
    have same : String.fromUTF8 settings.toUTF8 valid = settings := rfl
    rw [fileText?, String.fromUTF8?, dif_pos valid, Option.map_some, same,
      unifyNewlines_of_not_mem plain, String.ofList_toList]
  have yaml : (CodeText.ofString ".json").isSuffixOf "/.xorc.yml" = false := by decide
  refine ⟨settings, ⟨_, Disk.read_eq_ok_iff.mpr found, text⟩, ?_, mapping⟩
  rw [Settings.Reader.read, yaml]
  simp only [Settings.Reader.standard, Settings.Reader.readYaml, read]
  rfl

deriving instance DecidableEq for Datum
deriving instance DecidableEq for Collection
deriving instance DecidableEq for Document

/-- A version of the settings of the project, what it stands for, and its entries. -/
def listedQuote : String := "quote: [1]\nformatter: [npx]"

@[inherit_doc listedQuote]
def listedEntries : List (Datum × Datum) :=
  [(.text "quote", .collection 1), (.text "formatter", .collection 2)]

@[inherit_doc listedQuote]
def listedDocument : Document :=
  ⟨.collection 0, #[.map listedEntries, .list [.int 1], .list [.text "npx"]]⟩

/-- A version with the same formatter. -/
def trueQuote : String := "formatter: [npx]\nquote: yes\nanswer: 42"

@[inherit_doc trueQuote]
def trueEntries : List (Datum × Datum) :=
  [(.text "formatter", .collection 1), (.text "quote", .bool true), (.text "answer", .int 42)]

@[inherit_doc trueQuote]
def trueDocument : Document := ⟨.collection 0, #[.map trueEntries, .list [.text "npx"]]⟩

theorem holds_listedQuote :
    Settings.HoldsMapping (.standard id "") (projectDisk listedQuote) [] "/.xorc.yml"
      listedDocument listedEntries :=
  holdsMapping_projectDisk (by decide +kernel) (by decide +kernel) rfl

theorem holds_trueQuote :
    Settings.HoldsMapping (.standard id "") (projectDisk trueQuote) [] "/.xorc.yml"
      trueDocument trueEntries :=
  holdsMapping_projectDisk (by decide +kernel) (by decide +kernel) rfl

/-- What is asked of the project, with a delimiter. -/
def quotedRequest (action : Action) : Request := ⟨"a.xo", none, some (.text "'"), none, action⟩

theorem versions_agree : (quotedRequest (.build none false)).Agree listedDocument trueDocument
    listedEntries trueEntries := by
  intro name used
  have known : name = "build_dir" ∨ name = "format" ∨ name = "formatter" ∨
      name = "output_format" := by
    simp [Request.Ignores, Action.Ignores, Settings.names, quotedRequest] at used
    tauto
  rcases known with rfl | rfl | rfl | rfl
  · exact .none
  · exact .none
  · refine .some fun depth => ?_
    match depth with
    | 0 => trivial
    | 1 => exact ⟨by simp, .some (.list (.cons trivial .nil))⟩
    | _ + 2 => exact ⟨by simp, .some (.list (.cons rfl .nil))⟩
  · exact .none

/-- A delimiter of the command line counts, whatever the settings say about it. -/
theorem quote_of_any_type_ignored :
    SameRun [".xorc.yml"] (run (projectWith listedQuote) ["build", "a.xo", "--quote", "'"])
      (run (projectWith trueQuote) ["build", "a.xo", "--quote", "'"]) := by
  have asked : readArguments ["build", "a.xo", "--quote", "'"] =
      .run 0 (quotedRequest (.build none false)) := by decide
  have apart : (projectDisk listedQuote).resolve [] "a.xo" ≠ .ok [".xorc.yml"] := by
    rw [(resolve_projectDisk listedQuote).2]
    decide
  have texts : Settings.HasTexts listedDocument listedEntries :=
    Settings.ofEntries_isOk_iff.mp ⟨⟨"[1]", "build", true, ["npx"], "pretty"⟩, by decide +kernel⟩
  have texts' : Settings.HasTexts trueDocument trueEntries :=
    Settings.ofEntries_isOk_iff.mp ⟨⟨"True", "build", true, ["npx"], "pretty"⟩, by decide⟩
  exact (overridden_settings_ignored asked (selected?_projectWith listedQuote rfl rfl)
    (resolve_projectDisk listedQuote).1 apart (others_projectDisk listedQuote trueQuote)
    holds_listedQuote holds_trueQuote versions_agree).mpr (Or.inr (iff_of_true texts texts'))

/-- A version with a number of so many hexadecimal digits in place of the delimiter. -/
def hexQuote (digits : Nat) : List Char :=
  ['q', 'u', 'o', 't', 'e', ':', ' ', '0', 'x'] ++ List.replicate digits 'f'

@[inherit_doc hexQuote]
def hexEntries (digits : Nat) : List (Datum × Datum) := [(.text "quote", .int (16 ^ digits - 1))]

@[inherit_doc hexQuote]
def hexDocument (digits : Nat) : Document := ⟨.collection 0, #[.map (hexEntries digits)]⟩

/-- The tokens of a text from its characters. -/
theorem tokens_ofList (cs : List Char) : Yaml.tokens (String.ofList cs) =
    if cs.all Yaml.isAllowed then
      ((Yaml.Scanner.mk ⟨cs, 0, 0, 0⟩ #[] 0 (-1) [] true []).goto
        (Yaml.withoutMark ⟨cs, 0, 0, 0⟩)).run (cs.length + 2)
    else ⟨[], .malformed⟩ := by
  simp [Yaml.tokens, Yaml.Scanner.start, Yaml.Place.start]

theorem holds_hexQuote {digits : Nat}
    (read : Yaml.read id (String.ofList (hexQuote digits)) = .ok (hexDocument digits)) :
    Settings.HoldsMapping (.standard id "") (projectDisk (String.ofList (hexQuote digits))) []
      "/.xorc.yml" (hexDocument digits) (hexEntries digits) := by
  refine holdsMapping_projectDisk ?_ read rfl
  intro mem
  rw [String.toList_ofList, hexQuote, List.mem_append] at mem
  rcases mem with mem | mem
  · exact absurd mem (by decide)
  · exact absurd (List.eq_of_mem_replicate mem) (by decide)

theorem hexQuote_agrees (digits : Nat) : (quotedRequest (.emit false)).Agree trueDocument
    (hexDocument digits) trueEntries (hexEntries digits) := by
  intro name used
  have known : name = "output_format" := by
    simp [Request.Ignores, Action.Ignores, Settings.names, quotedRequest] at used
    tauto
  subst known
  exact .none

-- The tokens are computed from the characters: as a string the text would be decoded first.
set_option maxRecDepth 200000 in
theorem read_hexQuote : Yaml.read id (String.ofList (hexQuote 3572)) = .ok (hexDocument 3572) := by
  rw [Yaml.read, Yaml.graph?, tokens_ofList]
  decide +kernel

/-- A number of too many digits in the settings stops a run that does not look at it, though with a
delimiter on the command line the two versions should give the same run. -/
theorem overridden_number_stops :
    readArguments ["emit", "a.xo", "--quote", "'"] = .run 0 (quotedRequest (.emit false)) ∧
    Settings.HoldsMapping (.standard id "") (projectDisk trueQuote) [] "/.xorc.yml" trueDocument
      trueEntries ∧
    Settings.HoldsMapping (.standard id "") (projectDisk (String.ofList (hexQuote 3572))) []
      "/.xorc.yml" (hexDocument 3572) (hexEntries 3572) ∧
    (quotedRequest (.emit false)).Agree trueDocument (hexDocument 3572) trueEntries
      (hexEntries 3572) ∧
    (run (projectWith (String.ofList (hexQuote 3572))) ["emit", "a.xo", "--quote", "'"]).ending =
      .fault (.value .tooLongToShow) ∧
    (run (projectWith trueQuote) ["emit", "a.xo", "--quote", "'"]).ending ≠
      .fault (.value .tooLongToShow) := by
  have asked : readArguments ["emit", "a.xo", "--quote", "'"] =
      .run 0 (quotedRequest (.emit false)) := by decide
  have holds := holds_hexQuote read_hexQuote
  have failed :
      Settings.ofEntries (hexDocument 3572) (hexEntries 3572) = .error .tooLongToShow := by
    decide +kernel
  have present : ∀ settings, (projectDisk settings).isFile [] "a.xo" = true := by
    intro settings
    rw [(twins_projectDisk settings "").isFile_eq]
    decide
  have chosen : ∀ settings,
      selected? (projectWith settings) (quotedRequest (.emit false)) = some "/.xorc.yml" :=
    fun settings => selected?_projectWith settings rfl rfl
  have made : Settings.ofEntries trueDocument trueEntries =
      .ok ⟨"True", "build", true, ["npx"], "pretty"⟩ := by decide
  refine ⟨asked, holds_trueQuote, holds, hexQuote_agrees 3572, ?_, ?_⟩
  · rw [run_eq _ asked, runRequest_of_fault (present _) (chosen _) holds failed]
    rfl
  · have found := loadSettings_of_holds (chosen trueQuote) holds_trueQuote
    rw [made] at found
    rw [run_eq _ asked, result_ending]
    exact ending_of_settings (congrArg Prod.fst found) .tooLongToShow

end Command

end XoLang
