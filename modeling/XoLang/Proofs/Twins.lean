import XoLang.Proofs.Replacing
import XoLang.Proofs.Searching

/-!
# Disks that differ in one file

Only reading looks into a file. All other operations depend on where files and folders stand, so on
two disks that differ in the content of one file they go the same way, and leave disks that differ
in that file at most.
-/

namespace XoLang

/-- Whether an entry is a folder. -/
def Entry.isFolder : Entry → Bool
  | .folder => true
  | .file _ => false

namespace Disk

/-- Disks with files and folders at the same places, equal everywhere but at one place. -/
structure Twins (place : List CodeText) (disk other : Disk) : Prop where
  kinds : ∀ p, (disk.get? p).map Entry.isFolder = (other.get? p).map Entry.isFolder
  elsewhere : ∀ p, p ≠ place → disk.get? p = other.get? p

/-- Changes to disks that differ in one file: they end alike, and the disks still differ so. -/
structure Change.Twins (place : List CodeText) (change other : Change) : Prop where
  disk : change.disk.Twins place other.disk
  fault : change.fault = other.fault

section Twins

variable {disk other : Disk} {place cwd : List CodeText} {path : CodeText}

theorem Twins.cases (twins : disk.Twins place other) (p : List CodeText) :
    (disk.get? p = none ∧ other.get? p = none) ∨
    (disk.get? p = some .folder ∧ other.get? p = some .folder) ∨
    ∃ a b, disk.get? p = some (.file a) ∧ other.get? p = some (.file b) := by
  have kinds := twins.kinds p
  cases here : disk.get? p with
  | none =>
    rw [here] at kinds
    exact Or.inl ⟨rfl, Option.map_eq_none_iff.mp kinds.symm⟩
  | some entry =>
    rw [here, Option.map_some] at kinds
    obtain ⟨entry', there, kind⟩ := Option.map_eq_some_iff.mp kinds.symm
    cases entry <;> cases entry' <;> simp_all [Entry.isFolder]

/-! Looking. -/

theorem Twins.walk_eq (twins : disk.Twins place other) (start names : List CodeText) :
    disk.walk start names = other.walk start names := by
  induction names generalizing start with
  | nil =>
    rcases twins.cases start with ⟨here, there⟩ | ⟨here, there⟩ | ⟨_, _, here, there⟩ <;>
      simp only [walk, here, there, Option.isSome]
  | cons name names ih =>
    rcases twins.cases start with ⟨here, there⟩ | ⟨here, there⟩ | ⟨_, _, here, there⟩ <;>
      simp only [walk, here, there, ih]

theorem Twins.resolve_eq (twins : disk.Twins place other) (cwd : List CodeText) (path : CodeText) :
    disk.resolve cwd path = other.resolve cwd path := by
  simp only [resolve, twins.walk_eq]

theorem Twins.has_eq (twins : disk.Twins place other) (cwd : List CodeText) (path : CodeText) :
    disk.has cwd path = other.has cwd path := by
  simp only [has, twins.resolve_eq]

theorem Twins.isFolder_eq (twins : disk.Twins place other) (cwd : List CodeText) (path : CodeText) :
    disk.isFolder cwd path = other.isFolder cwd path := by
  simp only [isFolder, find, twins.resolve_eq]
  cases other.resolve cwd path with
  | error fault => rfl
  | ok p =>
    rcases twins.cases p with ⟨here, there⟩ | ⟨here, there⟩ | ⟨_, _, here, there⟩ <;>
      simp only [here, there]

theorem Twins.isFile_eq (twins : disk.Twins place other) (cwd : List CodeText) (path : CodeText) :
    disk.isFile cwd path = other.isFile cwd path := by
  simp only [isFile, find, twins.resolve_eq]
  cases other.resolve cwd path with
  | error fault => rfl
  | ok p =>
    rcases twins.cases p with ⟨here, there⟩ | ⟨here, there⟩ | ⟨_, _, here, there⟩ <;>
      simp only [here, there]

/-- Only a path to the one place reads differently. -/
theorem Twins.read_eq (twins : disk.Twins place other)
    (elsewhere : disk.resolve cwd path ≠ .ok place) :
    disk.read cwd path = other.read cwd path := by
  rw [twins.resolve_eq] at elsewhere
  simp only [read, find, twins.resolve_eq]
  cases found : other.resolve cwd path with
  | error fault => rfl
  | ok p =>
    have away : p ≠ place := fun same => elsewhere (by rw [found, same])
    simp only [twins.elsewhere p away]

theorem Twins.parent_eq (twins : disk.Twins place other) (cwd : List CodeText) (path : CodeText) :
    disk.parent cwd path = other.parent cwd path := by
  simp only [parent, twins.walk_eq]
  split
  · rfl
  · split
    · rfl
    · rename_i folder _
      rcases twins.cases folder with ⟨here, there⟩ | ⟨here, there⟩ | ⟨_, _, here, there⟩ <;>
        simp only [here, there]

theorem Twins.find?_eq (twins : disk.Twins place other) (cwd : List CodeText)
    (folder : CodeText) : Settings.find? disk cwd folder = Settings.find? other cwd folder :=
  Settings.nearest?_congr fun _ _ _ _ => twins.isFile_eq [] _

/-! Changing. -/

theorem Twins.put (twins : disk.Twins place other) {p : List CodeText} (proper : p ≠ [])
    (entry : Entry) : (disk.put p entry).Twins place (other.put p entry) where
  kinds q := by
    rw [get?_put proper, get?_put proper]
    split_ifs
    · rfl
    · exact twins.kinds q
  elsewhere q away := by
    rw [get?_put proper, get?_put proper, twins.elsewhere q away]

theorem Twins.clear (twins : disk.Twins place other) (folder : List CodeText) :
    (disk.clear folder).Twins place (other.clear folder) where
  kinds q := by
    rw [get?_clear, get?_clear]
    split_ifs
    · rfl
    · exact twins.kinds q
  elsewhere q away := by
    rw [get?_clear, get?_clear, twins.elsewhere q away]

/-- The root cannot be dropped. -/
theorem get?_drop_root (disk : Disk) (p : List CodeText) : (disk.drop []).get? p = disk.get? p := by
  rw [get?, get?, Disk.drop, lookup_filter (fun spot => spot ≠ [])]
  split_ifs with root proper
  · rfl
  · rfl
  · simp [root] at proper

theorem Twins.drop (twins : disk.Twins place other) (p : List CodeText) :
    (disk.drop p).Twins place (other.drop p) := by
  by_cases root : p = []
  · subst root
    refine ⟨fun q => ?_, fun q away => ?_⟩
    · rw [get?_drop_root, get?_drop_root, twins.kinds q]
    · rw [get?_drop_root, get?_drop_root, twins.elsewhere q away]
  · refine ⟨fun q => ?_, fun q away => ?_⟩
    · rw [get?_drop root, get?_drop root]
      split_ifs
      · rfl
      · exact twins.kinds q
    · rw [get?_drop root, get?_drop root, twins.elsewhere q away]

theorem Twins.makeFolder (twins : disk.Twins place other) (cwd : List CodeText) (path : CodeText) :
    (Change.of disk (disk.makeFolder cwd path)).Twins place
      (Change.of other (other.makeFolder cwd path)) := by
  simp only [Disk.makeFolder, twins.parent_eq]
  cases other.parent cwd path with
  | error fault => exact ⟨twins, rfl⟩
  | ok found =>
    obtain ⟨folder, name⟩ := found
    cases name with
    | none => exact ⟨twins, rfl⟩
    | some name =>
      have there :
          (disk.get? (folder ++ [name])).isSome = (other.get? (folder ++ [name])).isSome := by
        rcases twins.cases (folder ++ [name]) with
          ⟨here, there⟩ | ⟨here, there⟩ | ⟨_, _, here, there⟩ <;>
          simp only [here, there, Option.isSome]
      simp only [there]
      split_ifs
      · exact ⟨twins, rfl⟩
      · exact ⟨twins.put (by simp) .folder, rfl⟩

theorem Twins.makeFoldersTo (twins : disk.Twins place other) (cwd : List CodeText) (absolute : Bool)
    (reversed : List CodeText) :
    (Disk.makeFoldersTo cwd absolute reversed disk).Twins place
      (Disk.makeFoldersTo cwd absolute reversed other) := by
  induction reversed with
  | nil => exact twins.makeFolder cwd _
  | cons name above ih =>
    simp only [Disk.makeFoldersTo, twins.has_eq, ih.fault]
    split
    · exact twins.makeFolder cwd _
    · split
      · split
        · exact ⟨ih.disk, rfl⟩
        · exact ih.disk.makeFolder cwd _
      · split
        · exact ⟨ih.disk, rfl⟩
        · exact ih.disk.makeFolder cwd _
      · exact ⟨ih.disk, rfl⟩

theorem Twins.makeFolders (twins : disk.Twins place other) (cwd : List CodeText) (path : CodeText) :
    (disk.makeFolders cwd path).Twins place (other.makeFolders cwd path) :=
  twins.makeFoldersTo cwd _ _

theorem Twins.removeFolder (twins : disk.Twins place other) (cwd : List CodeText)
    (path : CodeText) :
    (disk.removeFolder cwd path).Twins place (other.removeFolder cwd path) := by
  simp only [Disk.removeFolder, twins.resolve_eq]
  cases other.resolve cwd path with
  | error fault => exact ⟨twins, rfl⟩
  | ok p =>
    have cleared := twins.clear p
    simp only [cleared.parent_eq]
    cases (other.clear p).parent cwd path with
    | error fault => exact ⟨cleared, rfl⟩
    | ok found =>
      obtain ⟨_, name⟩ := found
      cases name with
      | none => exact ⟨cleared, rfl⟩
      | some name =>
        simp only
        split_ifs
        · exact ⟨cleared, rfl⟩
        · exact ⟨cleared.drop p, rfl⟩

theorem Twins.write (twins : disk.Twins place other) (cwd : List CodeText) (path : CodeText)
    (content : ByteArray) :
    (disk.write cwd path content).Twins place (other.write cwd path content) := by
  simp only [Disk.write, twins.parent_eq]
  cases other.parent cwd path with
  | error fault => exact ⟨twins, rfl⟩
  | ok found =>
    obtain ⟨folder, name⟩ := found
    cases name with
    | none => exact ⟨twins, rfl⟩
    | some name =>
      rcases twins.cases (folder ++ [name]) with
        ⟨here, there⟩ | ⟨here, there⟩ | ⟨_, _, here, there⟩ <;>
        simp only [here, there]
      · exact ⟨twins.put (by simp) _, rfl⟩
      · exact ⟨twins, rfl⟩
      · exact ⟨twins.put (by simp) _, rfl⟩

theorem Twins.cleared (twins : disk.Twins place other) (cwd : List CodeText) (dir : CodeText) :
    (disk.cleared cwd dir).Twins place (other.cleared cwd dir) := by
  simp only [Disk.cleared, twins.isFolder_eq]
  split_ifs
  · exact twins.removeFolder cwd dir
  · exact ⟨twins, rfl⟩

theorem Twins.replaceFolder (twins : disk.Twins place other) (cwd : List CodeText)
    (dir path : CodeText) (content : ByteArray) :
    (disk.replaceFolder cwd dir path content).Twins place
      (other.replaceFolder cwd dir path content) := by
  have cleared := twins.cleared cwd dir
  have made := cleared.disk.makeFolders cwd dir
  simp only [Disk.replaceFolder, cleared.fault, made.fault]
  split
  · exact ⟨cleared.disk, rfl⟩
  · split
    · exact ⟨made.disk, rfl⟩
    · exact made.disk.write cwd path content

end Twins

end Disk

namespace Command

variable {world : World} {other : Disk} {place : List CodeText}

theorem placeAt_snd (world : World) (name : String) (dir path : CodeText) (code : String)
    (trace : Trace) : (placeAt world name dir path code trace).2 =
      if world.disk.isFolder world.cwd dir then trace.add .info "xo.cli" ("clearing " ++ name)
      else trace := by
  rw [placeAt]
  simp only
  split
  · rfl
  · split <;> rfl

/-- Putting code into a build directory goes the same way. -/
theorem place_twins (twins : world.disk.Twins place other) (dir : CodeText) (file code : String)
    (trace : Trace) :
    (Command.place world dir file code trace).1.Twins place
        (Command.place { world with disk := other } dir file code trace).1 ∧
      (Command.place world dir file code trace).2 =
        (Command.place { world with disk := other } dir file code trace).2 := by
  rw [Command.place, Command.place]
  constructor
  · simp only [Disk.placeAt_eq]
    exact twins.replaceFolder world.cwd (Path.onDisk dir) _ code.toUTF8
  · simp only [placeAt_snd, twins.isFolder_eq]

end Command

end XoLang
