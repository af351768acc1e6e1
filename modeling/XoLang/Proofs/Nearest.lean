import XoLang.Proofs.Searching

/-!
# The nearest settings file

A search climbs from a folder to the root, one folder at a time, and looks in each for the names of
settings files in the order of priority. It ends in the first folder that holds one, or at the root,
which is its own parent. So the nearest folder counts before the priority of names, and a search
finds nothing only if no folder on the way up holds a settings file.
-/

namespace XoLang.Settings

/-- A file stands in a folder under a name, where the path that a search forms leads to it. A folder
with that name does not count. -/
def Holds (disk : Disk) (root : CodeText) (folder : List CodeText) (name : CodeText) : Prop :=
  disk.isFile [] (Path.text root (folder ++ [name])) = true

/-- A folder holds no settings file. -/
def Lacks (disk : Disk) (root : CodeText) (folder : List CodeText) : Prop :=
  ∀ name ∈ fileNames, ¬ Holds disk root folder name

/-- The settings file of a folder: no name before it is that of a file there. -/
inductive Prefers (disk : Disk) (root : CodeText) (folder : List CodeText) (name : CodeText) : Prop
  | mk {before after : List CodeText} (order : fileNames = before ++ name :: after)
      (holds : Holds disk root folder name)
      (first : ∀ other ∈ before, ¬ Holds disk root folder other)

/-- The nearest folder that holds a settings file, from a folder upwards. -/
structure Nearest (disk : Disk) (root : CodeText) (start folder : List CodeText) : Prop where
  above : folder <+: start
  holds : ∃ name ∈ fileNames, Holds disk root folder name
  nearer : ∀ lower, folder <+: lower → lower <+: start → lower ≠ folder → Lacks disk root lower

/-- A climb from a folder, step by step, and the path that it finds. -/
inductive Climb (disk : Disk) (root : CodeText) : List CodeText → Option CodeText → Prop
  | here {folder : List CodeText} {name : CodeText} (prefers : Prefers disk root folder name) :
      Climb disk root folder (some (Path.text root (folder ++ [name])))
  | up {folder : List CodeText} {found : Option CodeText} (lacks : Lacks disk root folder)
      (inner : folder.dropLast ≠ folder) (rest : Climb disk root folder.dropLast found) :
      Climb disk root folder found
  | top {folder : List CodeText} (lacks : Lacks disk root folder)
      (isTop : folder.dropLast = folder) : Climb disk root folder none

section Holding

open Disk

variable {disk : Disk} {root name : CodeText} {folder : List CodeText}

/-- Real names can be walked from the root where all places up to their end are folders. -/
theorem leads_root_iff {names : List CodeText} (count : Nat)
    (real : ∀ step ∈ names, IsName step) :
    disk.Leads [] (List.replicate count [] ++ names) ∧ disk.get? names = some .folder ↔
      (∀ upper, upper <+: names → disk.get? upper = some .folder) ∧
      ∀ step ∈ names, nameTooLong step = false := by
  have last := Path.foldl_follow_behind count real []
  rw [List.nil_append] at last
  have level := Path.not_mem_behind count real
  constructor
  · rintro ⟨⟨folders, short⟩, here⟩
    refine ⟨?_, fun step mem => short step (List.mem_append_right _ mem)⟩
    intro upper front
    by_cases same : upper = names
    · rwa [same]
    · exact folders upper (Path.mem_way_of_between level List.nil_prefix (by rwa [last])
        (by rwa [last]))
  · rintro ⟨folders, short⟩
    refine ⟨leads_of_folders level (by rwa [last]) ?_, folders names List.prefix_rfl⟩
    intro step mem
    rcases List.mem_append.mp mem with blank | mem
    · rw [List.eq_of_mem_replicate blank]
      decide
    · exact short step mem

/-- What it is to hold a file: the entry is a file, it stands in folders, its names are not too long
and its path can be opened. -/
theorem holds_iff (isRoot : Path.IsRoot root) (real : ∀ step ∈ folder ++ [name], IsName step) :
    Holds disk root folder name ↔
      (∃ content, disk.get? (folder ++ [name]) = some (.file content)) ∧
      (∀ upper, upper <+: folder → disk.get? upper = some .folder) ∧
      (∀ step ∈ folder ++ [name], nameTooLong step = false) ∧
      pathFault? (Path.text root (folder ++ [name])) = none := by
  obtain ⟨count, split⟩ := Path.names_text isRoot fun step mem => (real step mem).2.2.2.1
  have above : ∀ step ∈ folder, IsName step := fun step mem =>
    real step (List.mem_append_left _ mem)
  have start : Path.origin [] (Path.text root (folder ++ [name])) = [] := ite_self _
  have walk : disk.Leads [] (Path.names (Path.text root (folder ++ [name]))) ↔
      (∀ upper, upper <+: folder → disk.get? upper = some .folder) ∧
        ∀ step ∈ folder ++ [name], nameTooLong step = false := by
    rw [split, ← List.append_assoc, leads_concat_iff,
      Path.foldl_follow_behind count above, List.nil_append, ← and_assoc,
      leads_root_iff count above, List.forall_mem_append, List.forall_mem_singleton, and_assoc]
  rw [Holds, isFile_iff]
  simp only [read_eq_ok_iff, find_eq_ok_iff, start, walk, Path.absolute_text isRoot real]
  constructor
  · rintro ⟨content, good, ⟨folders, short⟩, here⟩
    exact ⟨⟨content, here⟩, folders, short, good⟩
  · rintro ⟨⟨content, here⟩, folders, short, good⟩
    exact ⟨content, good, ⟨folders, short⟩, here⟩

end Holding

section Climbing

variable {disk : Disk} {start folder : List CodeText} {root path name : CodeText}

/-- The preferred name is the first one under which a file is found. -/
theorem find?_eq_some_iff : (fileNames.find? fun name =>
      disk.isFile [] (Path.text root (folder ++ [name]))) = some name ↔
    Prefers disk root folder name := by
  have free : ∀ other, ¬ Holds disk root folder other ↔
      (!disk.isFile [] (Path.text root (folder ++ [other]))) = true := by
    intro other
    rw [Holds]
    simp
  rw [List.find?_eq_some_iff_append]
  constructor
  · rintro ⟨found, before, after, order, first⟩
    exact .mk order found fun other mem => (free other).mpr (first other mem)
  · rintro ⟨order, holds, first⟩
    exact ⟨holds, _, _, order, fun other mem => (free other).mp (first other mem)⟩

theorem inFolder?_eq_some_iff : inFolder? disk root folder = some path ↔
    ∃ name, Prefers disk root folder name ∧ path = Path.text root (folder ++ [name]) := by
  rw [inFolder?, List.find?_map, Option.map_eq_some_iff]
  exact exists_congr fun name => and_congr find?_eq_some_iff eq_comm

theorem inFolder?_eq_none_iff : inFolder? disk root folder = none ↔ Lacks disk root folder := by
  rw [inFolder?, List.find?_map, Option.map_eq_none_iff, List.find?_eq_none]
  rfl

/-- A search is a climb. -/
theorem climb_nearest? (disk : Disk) (root : CodeText) (reversed : List CodeText) :
    Climb disk root reversed.reverse (nearest? disk root reversed) := by
  have found : ∀ {folder path}, inFolder? disk root folder = some path →
      Climb disk root folder (some path) := by
    intro folder path inside
    obtain ⟨name, prefers, rfl⟩ := inFolder?_eq_some_iff.mp inside
    exact .here prefers
  induction reversed with
  | nil =>
    rw [nearest?]
    cases inside : inFolder? disk root [] with
    | some path => exact found inside
    | none => exact .top (inFolder?_eq_none_iff.mp inside) rfl
  | cons name above ih =>
    rw [nearest?]
    cases inside : inFolder? disk root (name :: above).reverse with
    | some path => exact found inside
    | none =>
      have parent : (name :: above).reverse.dropLast = above.reverse := by simp
      refine .up (inFolder?_eq_none_iff.mp inside) ?_ (by rw [parent]; exact ih)
      rw [parent]
      simp

/-- What lies on the way to a folder is the folder itself or lies on the way to its parent. -/
theorem prefix_dropLast_or_eq (front : folder <+: start) :
    folder = start ∨ folder <+: start.dropLast := by
  rcases List.eq_nil_or_concat start with rfl | ⟨above, last, rfl⟩
  · exact Or.inl (List.prefix_nil.mp front)
  · rw [List.concat_eq_append] at front ⊢
    rw [List.dropLast_concat]
    exact (List.prefix_concat_iff.mp front)

/-- A climb that finds something ends in the nearest folder. -/
theorem Climb.nearest (climb : Climb disk root start (some path)) :
    ∃ folder name, Nearest disk root start folder ∧ Prefers disk root folder name ∧
      path = Path.text root (folder ++ [name]) := by
  generalize same : some path = found at climb
  induction climb with
  | @here folder name prefers =>
    cases same
    obtain ⟨order, holds, first⟩ := prefers
    refine ⟨folder, name, ⟨List.prefix_rfl, ⟨name, by simp [order], holds⟩, ?_⟩,
      .mk order holds first, rfl⟩
    intro lower front back other
    exact absurd (back.eq_of_length_le front.length_le) other
  | @up start found lacks inner rest ih =>
    obtain ⟨folder, name, nearest, prefers, same⟩ := ih same
    refine ⟨folder, name, ⟨nearest.above.trans (List.dropLast_prefix start), nearest.holds, ?_⟩,
      prefers, same⟩
    intro lower front back other
    rcases prefix_dropLast_or_eq back with rfl | back
    · exact lacks
    · exact nearest.nearer lower front back other
  | top => cases same

/-- A climb that finds nothing has seen every folder on the way. -/
theorem Climb.lacks (climb : Climb disk root start none) (front : folder <+: start) :
    Lacks disk root folder := by
  generalize same : none = found at climb
  induction climb with
  | here => cases same
  | up lacks inner rest ih =>
    rcases prefix_dropLast_or_eq front with rfl | front
    · exact lacks
    · exact ih front same
  | @top start lacks isTop =>
    have empty : start = [] := by
      have short := congrArg List.length isTop
      rw [List.length_dropLast] at short
      exact List.eq_nil_of_length_eq_zero (by omega)
    subst empty
    rwa [List.prefix_nil.mp front]

theorem Nearest.unique {other : List CodeText} (one : Nearest disk root start folder)
    (two : Nearest disk root start other) : other = folder := by
  by_contra differ
  obtain ⟨name, known, holds⟩ := one.holds
  obtain ⟨name', known', holds'⟩ := two.holds
  rcases List.prefix_or_prefix_of_prefix one.above two.above with front | front
  · exact one.nearer other front two.above differ name' known' holds'
  · exact two.nearer folder front one.above (Ne.symm differ) name known holds

theorem Prefers.unique {other : CodeText} (one : Prefers disk root folder name)
    (two : Prefers disk root folder other) : other = name :=
  Option.some.inj ((find?_eq_some_iff.mpr two).symm.trans (find?_eq_some_iff.mpr one))

end Climbing

/-- A search climbs to the root at most. It finds the settings file of the nearest folder that
holds one, and nothing only if no folder on the way up holds one. -/
theorem find?_nearest (disk : Disk) (cwd : List CodeText) (folder : CodeText) :
    Climb disk (Path.root folder) (Path.absolute cwd folder) (find? disk cwd folder) ∧
    (∀ path, find? disk cwd folder = some path ↔
      ∃ nearest name, Nearest disk (Path.root folder) (Path.absolute cwd folder) nearest ∧
        Prefers disk (Path.root folder) nearest name ∧
        path = Path.text (Path.root folder) (nearest ++ [name])) ∧
    (find? disk cwd folder = none ↔
      ∀ upper, upper <+: Path.absolute cwd folder → Lacks disk (Path.root folder) upper) := by
  have climb : Climb disk (Path.root folder) (Path.absolute cwd folder)
      (find? disk cwd folder) := by
    have climb := climb_nearest? disk (Path.root folder) (Path.absolute cwd folder).reverse
    rwa [List.reverse_reverse] at climb
  refine ⟨climb, ?_, ?_⟩
  · intro path
    constructor
    · intro found
      rw [found] at climb
      exact climb.nearest
    · rintro ⟨nearest, name, isNearest, prefers, rfl⟩
      cases found : find? disk cwd folder with
      | none =>
        rw [found] at climb
        obtain ⟨other, known, holds⟩ := isNearest.holds
        exact absurd holds (climb.lacks isNearest.above other known)
      | some path =>
        rw [found] at climb
        obtain ⟨other, name', isNearest', prefers', rfl⟩ := climb.nearest
        obtain rfl := isNearest.unique isNearest'
        rw [prefers.unique prefers']
  · constructor
    · intro nothing upper front
      rw [nothing] at climb
      exact climb.lacks front
    · intro lacks
      cases found : find? disk cwd folder with
      | none => rfl
      | some path =>
        rw [found] at climb
        obtain ⟨nearest, name, isNearest, -, -⟩ := climb.nearest
        obtain ⟨other, known, holds⟩ := isNearest.holds
        exact absurd holds (lacks nearest isNearest.above other known)

/-- A nearer file counts before one with a higher priority, and a folder with such a name does not
count at all. -/
example :
    find? ⟨[([".xorc.yml"], .file ⟨#[]⟩), (["p"], .folder), (["p", ".xorc.yml"], .folder),
      (["p", "xo.config.json"], .file ⟨#[]⟩), (["p", "q"], .folder)]⟩ ["p"] "q/r/.." =
      some "/p/xo.config.json" := by decide

end XoLang.Settings
