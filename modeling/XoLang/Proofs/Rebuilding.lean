import XoLang.Proofs.Outcomes
import XoLang.Proofs.Searching

/-!
# What a build leaves

A successful build leaves its folder with one file, named after the source and holding its code, and
touches nothing else but to make the folders on the way. Doing it again changes nothing, as long as
the second run finds the same settings and can remove the folder under the path that it was made
with.
-/

namespace XoLang.Command

/-! The name of the file. -/

/-- The part of a name before its extension: a name is cut at its last dot, unless only dots stand
before it. -/
inductive IsStem (name : CodeText) : CodeText → Prop
  | cut {base extension : CodeText} (split : name = base ++ .char '.' :: extension)
      (last : .char '.' ∉ extension) (named : ∃ point ∈ base, point ≠ .char '.') : IsStem name base
  | whole (dots : ∀ base extension, name = base ++ .char '.' :: extension →
      .char '.' ∉ extension → ∀ point ∈ base, point = .char '.') : IsStem name name

section Stems

variable {name base behind : CodeText}

theorem takeWhile_not_dot {text : CodeText} (last : .char '.' ∉ text) :
    text.takeWhile (· ≠ .char '.') = text := by
  rw [List.takeWhile_eq_self_iff]
  intro point mem
  have other : point ≠ .char '.' := by
    rintro rfl
    exact last mem
  simpa using other

theorem takeWhile_behind_dot (split : name = base ++ .char '.' :: behind)
    (last : .char '.' ∉ behind) :
    name.reverse.takeWhile (· ≠ .char '.') = behind.reverse := by
  have last' : .char '.' ∉ behind.reverse := fun mem => last (List.mem_reverse.mp mem)
  rw [split, List.reverse_append, List.reverse_cons, List.append_assoc, List.singleton_append,
    List.takeWhile_append, takeWhile_not_dot last', if_pos rfl,
    List.takeWhile_cons_of_neg (by simp), List.append_nil]

theorem stem_of_split (split : name = base ++ .char '.' :: behind) (last : .char '.' ∉ behind) :
    Path.stem name = if base.all (· = .char '.') then name else base := by
  have size : name.length = base.length + 1 + behind.length := by
    rw [split, List.length_append, List.length_cons]
    omega
  have before : name.take (name.length - behind.length - 1) = base := by
    rw [size, split, List.take_left']
    omega
  have proper : ¬ behind.length = name.length := by omega
  rw [Path.stem]
  simp only [takeWhile_behind_dot split last, List.length_reverse, before]
  simp [proper]

theorem stem_of_no_dot (plain : .char '.' ∉ name) : Path.stem name = name := by
  have whole := takeWhile_not_dot fun mem => plain (List.mem_reverse.mp mem)
  rw [Path.stem]
  simp only [whole, List.length_reverse]
  simp

theorem stem_isStem (name : CodeText) : IsStem name (Path.stem name) := by
  by_cases dot : .char '.' ∈ name
  · -- Seen from its end, the name has a first dot.
    obtain ⟨behind, base, reversed, last⟩ := List.eq_append_cons_of_mem (List.mem_reverse.mpr dot)
    have split : name = base.reverse ++ .char '.' :: behind.reverse := by
      rw [← List.reverse_reverse name, reversed]
      simp
    have noDot : .char '.' ∉ behind.reverse := fun mem => last (List.mem_reverse.mp mem)
    rw [stem_of_split split noDot]
    by_cases dots : ∀ point ∈ base.reverse, point = .char '.'
    · rw [if_pos (by simpa using dots)]
      refine .whole fun front extension same noDot' point mem => dots point ?_
      have tail : extension = behind.reverse := by
        rw [← List.reverse_inj, ← takeWhile_behind_dot same noDot',
          takeWhile_behind_dot split noDot]
      rw [split, tail] at same
      rwa [List.append_cancel_right same]
    · rw [if_neg (by simpa using dots)]
      exact .cut split noDot (by simpa using dots)
  · rw [stem_of_no_dot dot]
    refine .whole fun front extension same _ => absurd ?_ dot
    rw [same]
    simp

theorem outputName_eq (file : CodeText) : ∃ stem, IsStem (Path.lastName file) stem ∧
    outputName file = stem ++ CodeText.ofString ".js" :=
  ⟨_, stem_isStem _, rfl⟩

end Stems

/-! The second run. -/

/-- The world that a run leaves. -/
def World.after (world : World) (arguments : List String) : World :=
  { world with disk := (run world arguments).disk }

section Again

variable {world other : World} {request : Request} {noFormat : Bool}
variable {settings settings' : Settings} {code code' : String}

/-- Builds that find the same settings and read the same source make the same code. -/
theorem makes_unique (first : Makes world request noFormat settings code)
    (second : Makes other request noFormat settings' code') (runner : other.runner = world.runner)
    (found : (loadSettings other request (folderOf other.cwd request.file)).1 =
      (loadSettings world request (folderOf world.cwd request.file)).1)
    (read : ∀ a b, world.disk.read world.cwd request.file = .ok a →
      other.disk.read other.cwd request.file = .ok b → a = b) :
    settings' = settings ∧ code' = code := by
  obtain ⟨delimiter, source, plain, ⟨loaded, accepted, a, fileA, textA⟩, compiled, final⟩ := first
  obtain ⟨delimiter', source', plain', ⟨loaded', accepted', b, fileB, textB⟩, compiled', final'⟩ :=
    second
  rw [found, loaded] at loaded'
  cases loaded'
  rw [accepted] at accepted'
  cases accepted'
  obtain rfl := read a b fileA fileB
  rw [textA] at textB
  cases textB
  rw [compiled] at compiled'
  cases compiled'
  refine ⟨rfl, ?_⟩
  rw [runner] at final'
  split_ifs at final final'
  · rw [final] at final'
    exact (Option.some.inj final').symm
  · exact final'.symm.trans final

variable {arguments : List String} {verbosity : Nat} {outDir : Option String}

/-- A build that succeeds has replaced its folder. -/
theorem replaced_of_success (asked : readArguments arguments = .run verbosity request)
    (action : request.action = .build outDir noFormat)
    (success : (run world arguments).ending = .exit 0) :
    ∃ settings code, Makes world request noFormat settings code ∧
      (run world arguments).disk =
        (placed world (buildDir settings outDir) request.file code).disk ∧
      (placed world (buildDir settings outDir) request.file code).fault = none := by
  rcases run_cases world asked with ⟨-, failed⟩ | ⟨_, _, settings, code, same, makes, disk, ending⟩
  · exact absurd success (failed outDir noFormat action)
  · rw [action] at same
    cases same
    refine ⟨settings, code, makes, disk, ?_⟩
    rw [success, endingOf] at ending
    cases fault : (placed world (buildDir settings outDir) request.file code).fault with
    | none => rfl
    | some fault' =>
      rw [fault] at ending
      cases ending

/-- Settings are found again when the source lies outside of the folder and the path of their file
bypasses it. -/
theorem loadSettings_rebuilt {folder : List CodeText} {name : CodeText} {content : ByteArray}
    (rebuilt : Disk.Rebuilt world.disk other.disk folder name content)
    (tree : world.disk.IsTree) (here : other.cwd = world.cwd)
    (reads : other.reader = world.reader)
    (there : (world.disk.get? (Path.absolute world.cwd request.file)).isSome = true)
    (outside : ¬ folder <+: Path.absolute world.cwd request.file)
    (elsewhere : ∀ path, request.configPath = some path →
      world.disk.Bypasses folder world.cwd path) :
    (loadSettings other request (folderOf other.cwd request.file)).1 =
      (loadSettings world request (folderOf world.cwd request.file)).1 := by
  have same : (Settings.load world.reader other.disk world.cwd request.configPath
        (folderOf world.cwd request.file)).result =
      (Settings.load world.reader world.disk world.cwd request.configPath
        (folderOf world.cwd request.file)).result :=
    Settings.load_rebuilt rebuilt tree there outside (Path.isRoot_root _) elsewhere
  rw [loadSettings, loadSettings, here, reads]
  split_ifs
  · rfl
  · exact congrArg (·.mapError Fault.ofLoad) same

end Again

/-- A successful build leaves exactly its folder with its file in it, and the same build once more
leaves the same. -/
theorem build_effect (world : World) (arguments : List String) {verbosity : Nat}
    {request : Request} {outDir : Option String} {noFormat : Bool} (tree : world.disk.IsTree)
    (home : world.disk.get? world.cwd = some .folder)
    (asked : readArguments arguments = .run verbosity request)
    (action : request.action = .build outDir noFormat)
    (success : (run world arguments).ending = .exit 0) :
    ∃ settings dir code stem, Makes world request noFormat settings code ∧
      dir = Path.onDisk (buildDir settings outDir) ∧
      IsStem (Path.lastName request.file) stem ∧
      (Path.up ∉ Path.names dir →
        (∀ p, ¬ Path.absolute world.cwd dir <+: p →
          (run world arguments).disk.get? p = world.disk.get? p ∨
          (p <+: Path.absolute world.cwd dir ∧ world.disk.get? p = none ∧
            (run world arguments).disk.get? p = some .folder)) ∧
        (∀ p, p <+: Path.absolute world.cwd dir →
          (run world arguments).disk.get? p = some .folder) ∧
        (∀ p, Path.absolute world.cwd dir <+: p → p ≠ Path.absolute world.cwd dir →
          (run world arguments).disk.get? p =
            if p = Path.absolute world.cwd dir ++ [stem ++ CodeText.ofString ".js"] then
              some (.file code.toUTF8)
            else none) ∧
        (¬ Path.absolute world.cwd dir <+: world.cwd →
          (Path.trimmed dir).getLast? ≠ some Path.here →
          ¬ Path.absolute world.cwd dir <+: Path.absolute world.cwd request.file →
          (∀ path, request.configPath = some path →
            world.disk.Bypasses (Path.absolute world.cwd dir) world.cwd path) →
          ∀ p, (run (world.after arguments) arguments).disk.get? p =
            (run world arguments).disk.get? p)) := by
  obtain ⟨settings, code, makes, disk, done⟩ := replaced_of_success asked action success
  obtain ⟨stem, isStem, named⟩ := outputName_eq request.file
  have isName := outputName_isName request.file
  refine ⟨settings, _, code, stem, makes, rfl, isStem, fun level => ?_⟩
  rw [placed] at disk done
  have rebuilt := Disk.rebuilt_of_replaceFolder isName tree.nested home level done
  rw [← disk] at rebuilt
  refine ⟨fun p => rebuilt.get?_outside, fun p => rebuilt.get?_above, ?_, ?_⟩
  · rw [← named]
    exact fun p => rebuilt.get?_inside
  · intro apart proper outside elsewhere p
    rcases run_cases (world.after arguments) asked with
      ⟨kept, -⟩ | ⟨_, _, settings', code', same, makes', disk', -⟩
    · rw [kept]
      rfl
    · rw [action] at same
      cases same
      have there : (world.disk.get? (Path.absolute world.cwd request.file)).isSome = true := by
        obtain ⟨_, _, _, ⟨-, -, content, read, -⟩, -⟩ := makes
        rw [Disk.get?_of_read read]
        rfl
      have found : (loadSettings (world.after arguments) request _).1 = _ :=
        loadSettings_rebuilt rebuilt tree rfl rfl there outside elsewhere
      obtain ⟨rfl, rfl⟩ := makes_unique makes makes' rfl found fun _ _ =>
        rebuilt.eq_of_read outside
      have fits := Disk.fits_of_replaceFolder isName level proper done
      rw [disk']
      exact rebuilt.replaceFolder_again isName fits tree.nested home apart p

theorem project_isTree : project.disk.IsTree := by
  apply Disk.isTree_of_entries
  decide

theorem project_rebuilt :
    (run project ["build", "src/a.xo", "-o", "out", "--no-format"]).ending = .exit 0 ∧
    (∃ stem code, IsStem "a.xo" stem ∧ ∀ p, Path.absolute project.cwd "out" <+: p →
      p ≠ Path.absolute project.cwd "out" →
      (run project ["build", "src/a.xo", "-o", "out", "--no-format"]).disk.get? p =
        if p = Path.absolute project.cwd "out" ++ [stem ++ CodeText.ofString ".js"] then
          some (.file (String.toUTF8 code))
        else none) ∧
    ∀ p, (run (project.after ["build", "src/a.xo", "-o", "out", "--no-format"])
        ["build", "src/a.xo", "-o", "out", "--no-format"]).disk.get? p =
      (run project ["build", "src/a.xo", "-o", "out", "--no-format"]).disk.get? p := by
  have asked : readArguments ["build", "src/a.xo", "-o", "out", "--no-format"] =
      .run 0 ⟨"src/a.xo", none, none, none, .build (some "out") true⟩ := by decide
  have makes : Makes project ⟨"src/a.xo", none, none, none, .build (some "out") true⟩ true .default
      "7" := makes_seven (by decide) rfl (by decide)
  have success : (run project ["build", "src/a.xo", "-o", "out", "--no-format"]).ending =
      .exit 0 := by
    rw [(run_of_makes asked rfl makes).2]
    decide
  obtain ⟨settings, dir, code, stem, -, known, isStem, effect⟩ :=
    build_effect project _ project_isTree (by decide) asked rfl success
  have same : buildDir settings (some "out") = .ofString "out" := rfl
  rw [same, Path.onDisk_ofString] at known
  subst known
  obtain ⟨-, -, inside, again⟩ := effect (by decide)
  refine ⟨success, ⟨stem, code, isStem, inside⟩, again ?_ ?_ ?_ ?_⟩
  · decide
  · decide
  · decide
  · intro path none
    cases none

/-- A project whose settings file can be reached through the folder that is built. -/
def roundabout : World where
  disk := ⟨[(["p"], .folder), (["p", "a.xo"], .file ⟨#[55]⟩),
    (["p", "cfg.yml"], .file "build_dir: o".toUTF8), (["p", "o"], .folder),
    (["p", "o", "x"], .folder)]⟩
  cwd := ["p"]
  colour := false
  runner := fun _ => .notFound
  reader := .standard id ""

/-- Two runs of a build that makes its code each time. -/
theorem run_twice {world : World} {request : Request} {settings settings' : Settings}
    {code code' : String} {arguments : List String} {p : List CodeText} {verbosity : Nat}
    {outDir : Option String} {noFormat : Bool} {entry entry' : Option Entry}
    (asked : readArguments arguments = .run verbosity request)
    (action : request.action = .build outDir noFormat)
    (first : Makes world request noFormat settings code)
    (second : Makes
      { world with disk := (placed world (buildDir settings outDir) request.file code).disk }
      request noFormat settings' code')
    (success : endingOf (placed world (buildDir settings outDir) request.file code) = .exit 0)
    (before : (placed world (buildDir settings outDir) request.file code).disk.get? p = entry)
    (after : (placed
      { world with disk := (placed world (buildDir settings outDir) request.file code).disk }
      (buildDir settings' outDir) request.file code').disk.get? p = entry') :
    (run world arguments).ending = .exit 0 ∧ (run world arguments).disk.get? p = entry ∧
    (run (world.after arguments) arguments).disk.get? p = entry' := by
  obtain ⟨disk, ending⟩ := run_of_makes asked action first
  rw [ending, World.after, disk, (run_of_makes asked action second).1]
  exact ⟨success, before, after⟩

/-- The same build once more loses its file if the folder was written with a last dot. It goes
elsewhere if its settings were reached through the folder, where they cannot be found again, or
where they could not be found before the folder was made. -/
theorem second_build_differs :
    ((run project ["build", "src/a.xo", "-o", "build/.", "--no-format"]).ending = .exit 0 ∧
      (run project ["build", "src/a.xo", "-o", "build/.", "--no-format"]).disk.get?
        ["p", "build", "a.js"] = some (.file ⟨#[55]⟩) ∧
      (run (project.after ["build", "src/a.xo", "-o", "build/.", "--no-format"])
        ["build", "src/a.xo", "-o", "build/.", "--no-format"]).disk.get?
        ["p", "build", "a.js"] = none) ∧
    ((run roundabout ["build", "a.xo", "--no-format", "--config", "o/x/../../cfg.yml"]).ending =
        .exit 0 ∧
      (run roundabout ["build", "a.xo", "--no-format", "--config", "o/x/../../cfg.yml"]).disk.get?
        ["p", "build", "a.js"] = none ∧
      (run (roundabout.after ["build", "a.xo", "--no-format", "--config", "o/x/../../cfg.yml"])
        ["build", "a.xo", "--no-format", "--config", "o/x/../../cfg.yml"]).disk.get?
        ["p", "build", "a.js"] = some (.file ⟨#[55]⟩)) ∧
    ((run roundabout ["build", "a.xo", "--no-format", "--config", "build/../cfg.yml"]).ending =
        .exit 0 ∧
      (run roundabout ["build", "a.xo", "--no-format", "--config", "build/../cfg.yml"]).disk.get?
        ["p", "o", "a.js"] = none ∧
      (run (roundabout.after ["build", "a.xo", "--no-format", "--config", "build/../cfg.yml"])
        ["build", "a.xo", "--no-format", "--config", "build/../cfg.yml"]).disk.get?
        ["p", "o", "a.js"] = some (.file ⟨#[55]⟩)) := by
  refine ⟨?_, ?_, ?_⟩
  · have asked : readArguments ["build", "src/a.xo", "-o", "build/.", "--no-format"] =
        .run 0 ⟨"src/a.xo", none, none, none, .build (some "build/.") true⟩ := by decide
    have first : Makes project ⟨"src/a.xo", none, none, none, .build (some "build/.") true⟩ true
        .default "7" := makes_seven (by decide) rfl (by decide)
    have second : Makes { project with disk := (placed project (buildDir .default (some "build/."))
        "src/a.xo" "7").disk } ⟨"src/a.xo", none, none, none, .build (some "build/.") true⟩ true
        .default "7" := makes_seven (by decide) rfl (by decide)
    exact run_twice asked rfl first second (by decide) (by decide) (by decide)
  · have asked : readArguments ["build", "a.xo", "--no-format", "--config", "o/x/../../cfg.yml"] =
        .run 0 ⟨"a.xo", some (.text "o/x/../../cfg.yml"), none, none, .build none true⟩ := by
      decide
    have first : Makes roundabout
        ⟨"a.xo", some (.text "o/x/../../cfg.yml"), none, none, .build none true⟩ true
        { Settings.default with buildDir := "o" } "7" :=
      makes_seven (by decide +kernel) rfl (by decide +kernel)
    have second : Makes { roundabout with disk := (placed roundabout
        (buildDir { Settings.default with buildDir := "o" } none) "a.xo" "7").disk }
        ⟨"a.xo", some (.text "o/x/../../cfg.yml"), none, none, .build none true⟩ true .default
        "7" :=
      makes_seven (by decide) rfl (by decide)
    exact run_twice asked rfl first second (by decide) (by decide) (by decide)
  · have asked : readArguments ["build", "a.xo", "--no-format", "--config", "build/../cfg.yml"] =
        .run 0 ⟨"a.xo", some (.text "build/../cfg.yml"), none, none, .build none true⟩ := by
      decide
    have first : Makes roundabout
        ⟨"a.xo", some (.text "build/../cfg.yml"), none, none, .build none true⟩ true .default "7" :=
      makes_seven (by decide) rfl (by decide)
    have second : Makes { roundabout with disk := (placed roundabout
        (buildDir .default none) "a.xo" "7").disk }
        ⟨"a.xo", some (.text "build/../cfg.yml"), none, none, .build none true⟩ true
        { Settings.default with buildDir := "o" } "7" :=
      makes_seven (by decide +kernel) rfl (by decide +kernel)
    exact run_twice asked rfl first second (by decide) (by decide) (by decide)

end XoLang.Command
