import XoLang.Command.Run
import XoLang.Proofs.Placing

/-!
# Replacing a folder

A build removes its folder with all that is in it, makes it again with the folders on the way, and
writes one file. Whether it succeeds or stops half-way, nothing is lost outside of the folder. A
success leaves exactly the folder with the file in it, and can be repeated unless the folder was
written with a last `.`, under which it can be made but not removed.
-/

namespace XoLang.Disk

/-- The disk with a folder removed, if it is there. -/
def cleared (disk : Disk) (cwd : List CodeText) (dir : CodeText) : Change :=
  if disk.isFolder cwd dir then disk.removeFolder cwd dir else ⟨disk, none⟩

/-- Replace a folder by one with a single file. -/
def replaceFolder (disk : Disk) (cwd : List CodeText) (dir path : CodeText) (content : ByteArray) :
    Change :=
  match (disk.cleared cwd dir).fault with
  | some fault => ⟨(disk.cleared cwd dir).disk, some fault⟩
  | none =>
    match ((disk.cleared cwd dir).disk.makeFolders cwd dir).fault with
    | some fault => ⟨((disk.cleared cwd dir).disk.makeFolders cwd dir).disk, some fault⟩
    | none => ((disk.cleared cwd dir).disk.makeFolders cwd dir).disk.write cwd path content

theorem placeAt_eq (world : Command.World) (name : String) (dir path : CodeText) (code : String)
    (trace : Command.Trace) :
    (Command.placeAt world name dir path code trace).1 =
      world.disk.replaceFolder world.cwd dir path code.toUTF8 := by
  rw [Command.placeAt, replaceFolder]
  have same : (if world.disk.isFolder world.cwd dir = true then
      world.disk.removeFolder world.cwd dir else ⟨world.disk, none⟩) =
        world.disk.cleared world.cwd dir := rfl
  simp only [same]
  cases (world.disk.cleared world.cwd dir).fault with
  | some fault => rfl
  | none =>
    cases ((world.disk.cleared world.cwd dir).disk.makeFolders world.cwd dir).fault with
    | some fault => rfl
    | none => rfl

section Replacing

variable {disk : Disk} {cwd p : List CodeText} {dir name : CodeText} {content : ByteArray}

theorem get?_cleared_outside (outside : ¬ Path.absolute cwd dir <+: p) :
    (disk.cleared cwd dir).disk.get? p = disk.get? p := by
  rw [cleared]
  split_ifs
  · exact get?_removeFolder_outside outside
  · rfl

theorem replaceFolder_cases (disk : Disk) (cwd : List CodeText) (dir path : CodeText)
    (content : ByteArray) :
    (∃ fault, disk.replaceFolder cwd dir path content =
      ⟨(disk.cleared cwd dir).disk, some fault⟩) ∨
    (∃ fault, disk.replaceFolder cwd dir path content =
      ⟨((disk.cleared cwd dir).disk.makeFolders cwd dir).disk, some fault⟩) ∨
    ((disk.cleared cwd dir).fault = none ∧
      ((disk.cleared cwd dir).disk.makeFolders cwd dir).fault = none ∧
      disk.replaceFolder cwd dir path content =
        ((disk.cleared cwd dir).disk.makeFolders cwd dir).disk.write cwd path content) := by
  rw [replaceFolder]
  split
  · exact Or.inl ⟨_, rfl⟩
  · rename_i removed
    split
    · exact Or.inr (Or.inl ⟨_, rfl⟩)
    · rename_i made
      exact Or.inr (Or.inr ⟨removed, made, rfl⟩)

/-- What stands outside of the folder stays, also when a step fails. -/
theorem get?_replaceFolder_outside (isName : OutputName name)
    (outside : ¬ Path.absolute cwd dir <+: p) (there : (disk.get? p).isSome = true) :
    (disk.replaceFolder cwd dir (Path.child dir name) content).disk.get? p = disk.get? p := by
  have kept : (disk.cleared cwd dir).disk.get? p = disk.get? p := get?_cleared_outside outside
  have grown : ((disk.cleared cwd dir).disk.makeFolders cwd dir).disk.get? p = disk.get? p := by
    have anywhere : (disk.cleared cwd dir).disk.GrownBy (fun _ => True)
        ((disk.cleared cwd dir).disk.makeFolders cwd dir).disk :=
      grown_makeFoldersTo (fun _ _ => trivial) _
    rw [anywhere.get?_of_isSome (by rwa [kept]), kept]
  rcases replaceFolder_cases disk cwd dir (Path.child dir name) content with
    ⟨fault, done⟩ | ⟨fault, done⟩ | ⟨-, -, done⟩
  · rw [done]
    exact kept
  · rw [done]
    exact grown
  · rw [done]
    rcases write_cases isName ((disk.cleared cwd dir).disk.makeFolders cwd dir).disk cwd dir content
      with ⟨fault, failed⟩ | takes
    · rw [failed]
      exact grown
    · rw [write_of_takes isName takes, get?_put (by simp), if_neg, grown]
      rintro rfl
      exact outside (List.prefix_append _ _)

/-- Nothing is lost where a file stands in the place of the folder. -/
theorem get?_replaceFolder_of_file {c : ByteArray} (isName : OutputName name)
    (file : disk.get? (Path.absolute cwd dir) = some (.file c))
    (there : (disk.get? p).isSome = true) :
    (disk.replaceFolder cwd dir (Path.child dir name) content).disk.get? p = disk.get? p := by
  have uncleared : disk.cleared cwd dir = ⟨disk, none⟩ := by
    have noFolder : ¬ disk.isFolder cwd dir = true := by
      rw [isFolder_iff, find_eq_ok_iff, file]
      simp
    exact if_neg noFolder
  have grown : disk.GrownBy (fun _ => True) (disk.makeFolders cwd dir).disk :=
    grown_makeFoldersTo (fun _ _ => trivial) disk
  rcases replaceFolder_cases disk cwd dir (Path.child dir name) content with
    ⟨fault, done⟩ | ⟨fault, done⟩ | ⟨-, -, done⟩
  · rw [done, uncleared]
  · rw [done, uncleared]
    exact grown.get?_of_isSome there
  · rw [done, uncleared]
    rcases write_cases isName (disk.makeFolders cwd dir).disk cwd dir content with
      ⟨fault, failed⟩ | takes
    · rw [failed]
      exact grown.get?_of_isSome there
    · have folder := takes.folder
      rw [grown.get?_of_isSome (by rw [file]; rfl), file] at folder
      cases folder

/-- What a disk holds when a folder has been replaced: the folder and those on the way to it, in it
one file, and all else as before. -/
def replaced (disk : Disk) (folder : List CodeText) (name : CodeText) (content : ByteArray)
    (p : List CodeText) : Option Entry :=
  if p <+: folder then some .folder
  else if folder <+: p then if p = folder ++ [name] then some (.file content) else none
  else disk.get? p

/-- Nothing stands below a folder that was removed, nor below a place that was no folder. -/
theorem get?_cleared_below (nested : disk.Nested) (level : Path.up ∉ Path.names dir)
    (good : pathFault? dir = none) (short : ∀ name ∈ Path.names dir, nameTooLong name = false)
    (removed : (disk.cleared cwd dir).fault = none) (inside : Path.absolute cwd dir <+: p)
    (other : p ≠ Path.absolute cwd dir) : (disk.cleared cwd dir).disk.get? p = none := by
  rw [cleared] at removed ⊢
  by_cases present : disk.isFolder cwd dir = true
  · rw [if_pos present] at removed ⊢
    exact get?_removeFolder_inside removed inside
  · rw [if_neg present]
    by_contra there
    have some : (disk.get? p).isSome = true := Option.isSome_iff_ne_none.mpr there
    -- Then all places on the way are folders, and the path would have led there.
    have folders : ∀ q, q <+: Path.absolute cwd dir → disk.get? q = .some .folder := by
      intro q front
      refine nested.get?_above some (front.trans inside) ?_
      rintro rfl
      exact other (front.eq_of_length_le inside.length_le)
    refine present (isFolder_iff.mpr (find_eq_ok_iff.mpr ⟨good, ⟨?_, short⟩, ?_⟩))
    · intro q mem
      exact folders q (Path.prefix_of_mem_way level mem).2
    · exact folders _ List.prefix_rfl

/-- When every step succeeds the file comes into the folder that was made. -/
theorem replaceFolder_of_takes (isName : OutputName name)
    (removed : (disk.cleared cwd dir).fault = none)
    (made : ((disk.cleared cwd dir).disk.makeFolders cwd dir).fault = none)
    (takes : ((disk.cleared cwd dir).disk.makeFolders cwd dir).disk.Takes cwd dir name) :
    disk.replaceFolder cwd dir (Path.child dir name) content =
      ⟨((disk.cleared cwd dir).disk.makeFolders cwd dir).disk.put
        (Path.absolute cwd dir ++ [name]) (.file content), none⟩ := by
  rw [replaceFolder, removed, made]
  exact write_of_takes isName takes

theorem takes_of_replaceFolder (isName : OutputName name)
    (done : (disk.replaceFolder cwd dir (Path.child dir name) content).fault = none) :
    (disk.cleared cwd dir).fault = none ∧
    ((disk.cleared cwd dir).disk.makeFolders cwd dir).fault = none ∧
    ((disk.cleared cwd dir).disk.makeFolders cwd dir).disk.Takes cwd dir name := by
  rcases replaceFolder_cases disk cwd dir (Path.child dir name) content with
    ⟨fault, failed⟩ | ⟨fault, failed⟩ | ⟨removed, made, written⟩
  · rw [failed] at done
    cases done
  · rw [failed] at done
    cases done
  · rw [written] at done
    rcases write_cases isName ((disk.cleared cwd dir).disk.makeFolders cwd dir).disk cwd dir content
      with ⟨fault, failed⟩ | takes
    · rw [failed] at done
      cases done
    · exact ⟨removed, made, takes⟩

/-- All places on the way to a folder that was made, those above the current folder included, are
folders. -/
theorem get?_makeFolders_above (nested : disk.Nested) (home : disk.get? cwd = some .folder)
    (level : Path.up ∉ Path.names dir)
    (takes : ((disk.cleared cwd dir).disk.makeFolders cwd dir).disk.Takes cwd dir name)
    (front : p <+: Path.absolute cwd dir) :
    ((disk.cleared cwd dir).disk.makeFolders cwd dir).disk.get? p = some .folder := by
  by_cases last : p = Path.absolute cwd dir
  · rw [last]
    exact takes.folder
  by_cases start : Path.origin cwd dir <+: p
  · exact takes.leads.folders p (Path.mem_way_of_between level start front last)
  · have above : p <+: Path.origin cwd dir := by
      rcases List.prefix_or_prefix_of_prefix front (Path.prefix_foldl_follow level) with
        above | back
      · exact above
      · exact absurd back start
    have old : disk.get? p = some .folder := by
      rw [Path.origin] at above start
      split_ifs at above start
      · exact absurd List.nil_prefix start
      · refine nested.get?_above (by rw [home]; rfl) above ?_
        rintro rfl
        exact start List.prefix_rfl
    have kept : (disk.cleared cwd dir).disk.get? p = some .folder := by
      rw [get?_cleared_outside, old]
      exact fun back => last (front.eq_of_length_le back.length_le)
    rw [(grown_makeFolders (disk.cleared cwd dir).disk level).get?_of_isSome (by rw [kept]; rfl),
      kept]

/-- After a success the disk is known at every place. -/
theorem get?_replaceFolder (isName : OutputName name) (nested : disk.Nested)
    (home : disk.get? cwd = some .folder) (level : Path.up ∉ Path.names dir)
    (done : (disk.replaceFolder cwd dir (Path.child dir name) content).fault = none)
    (p : List CodeText) :
    (disk.replaceFolder cwd dir (Path.child dir name) content).disk.get? p =
      disk.replaced (Path.absolute cwd dir) name content p := by
  obtain ⟨removed, made, takes⟩ := takes_of_replaceFolder isName done
  have nonempty : dir ≠ [] := by
    rintro rfl
    exact makeFolders_ne_empty made rfl
  have good := pathFault?_of_child takes.good nonempty
  have short := takes.leads.short
  have grown : (disk.cleared cwd dir).disk.GrownBy (· <+: Path.absolute cwd dir) _ :=
    grown_makeFolders (disk.cleared cwd dir).disk level
  rw [replaceFolder_of_takes isName removed made takes, get?_put (by simp), replaced]
  by_cases front : p <+: Path.absolute cwd dir
  · have other : p ≠ Path.absolute cwd dir ++ [name] := by
      rintro rfl
      have size := front.length_le
      rw [List.length_append, List.length_singleton] at size
      omega
    rw [if_neg other, if_pos front]
    exact get?_makeFolders_above nested home level takes front
  · rw [if_neg front, grown.get?_of_not front]
    by_cases inside : Path.absolute cwd dir <+: p
    · have below : p ≠ Path.absolute cwd dir := by
        rintro rfl
        exact front inside
      rw [if_pos inside, get?_cleared_below nested level good short removed inside below]
    · have other : p ≠ Path.absolute cwd dir ++ [name] := by
        rintro rfl
        exact inside (List.prefix_append _ _)
      rw [if_neg inside, if_neg other, get?_cleared_outside inside]

/-- What a success found on the way to the folder were folders. -/
theorem folder_of_replaceFolder (isName : OutputName name) (nested : disk.Nested)
    (home : disk.get? cwd = some .folder) (level : Path.up ∉ Path.names dir)
    (done : (disk.replaceFolder cwd dir (Path.child dir name) content).fault = none)
    (front : p <+: Path.absolute cwd dir) (there : (disk.get? p).isSome = true) :
    disk.get? p = some .folder := by
  obtain ⟨-, -, takes⟩ := takes_of_replaceFolder isName done
  by_cases present : disk.isFolder cwd dir = true
  · have folder := (find_eq_ok_iff.mp (isFolder_iff.mp present)).2.2
    by_cases last : p = Path.absolute cwd dir
    · rw [last]
      exact folder
    · exact nested.get?_above (by rw [folder]; rfl) front last
  · -- Nothing was removed, and making folders keeps what is there.
    have same : disk.cleared cwd dir = ⟨disk, none⟩ := if_neg present
    have made := get?_makeFolders_above nested home level takes front
    rw [same, (grown_makeFolders disk level).get?_of_isSome there] at made
    exact made

end Replacing

/-! A disk with a folder replaced. -/

/-- The second disk is the first one with a folder replaced, where the way to it was free. -/
structure Rebuilt (disk next : Disk) (folder : List CodeText) (name : CodeText)
    (content : ByteArray) : Prop where
  entries : ∀ p, next.get? p = disk.replaced folder name content p
  folders : ∀ p, p <+: folder → (disk.get? p).isSome = true → disk.get? p = some .folder

/-- A path leads out of a folder. If it steps up, it passes no folder that is made on the way to
that folder, and none that is removed from it. -/
structure Bypasses (disk : Disk) (folder cwd : List CodeText) (path : CodeText) : Prop where
  outside : ¬ folder <+: Path.absolute cwd path
  passes : Path.up ∈ Path.names path → ∀ q ∈ Path.way (Path.origin cwd path) (Path.names path),
    (q <+: folder → (disk.get? q).isSome = true) ∧
      (folder <+: q → q ≠ folder → disk.get? q ≠ some .folder)

section Rebuilding

variable {disk next : Disk} {folder cwd p : List CodeText} {name path : CodeText}
variable {content c : ByteArray}

theorem Rebuilt.get?_above (h : Rebuilt disk next folder name content) (front : p <+: folder) :
    next.get? p = some .folder := by
  rw [h.entries, replaced, if_pos front]

theorem Rebuilt.get?_inside (h : Rebuilt disk next folder name content) (inside : folder <+: p)
    (below : p ≠ folder) :
    next.get? p = if p = folder ++ [name] then some (.file content) else none := by
  have longer : ¬ p <+: folder := fun front => below (front.eq_of_length_le inside.length_le)
  rw [h.entries, replaced, if_neg longer, if_pos inside]

/-- Outside of the folder nothing changes but for the folders on the way. -/
theorem Rebuilt.get?_outside (h : Rebuilt disk next folder name content)
    (outside : ¬ folder <+: p) : next.get? p = disk.get? p ∨
      (p <+: folder ∧ disk.get? p = none ∧ next.get? p = some .folder) := by
  by_cases front : p <+: folder
  · have after := h.get?_above front
    cases before : disk.get? p with
    | none => exact Or.inr ⟨front, rfl, after⟩
    | some entry =>
      refine Or.inl ?_
      rw [after, ← before, h.folders p front (by rw [before]; rfl)]
  · refine Or.inl ?_
    rw [h.entries, replaced, if_neg front, if_neg outside]

/-- There are the same files outside of the folder, and none in its place. -/
theorem Rebuilt.file_iff (h : Rebuilt disk next folder name content)
    (near : folder <+: p → p = folder) :
    next.get? p = some (.file c) ↔ disk.get? p = some (.file c) := by
  by_cases front : p <+: folder
  · rw [h.get?_above front]
    constructor
    · intro other
      cases other
    · intro taken
      have found := h.folders p front (by rw [taken]; rfl)
      rw [taken] at found
      cases found
  · have outside : ¬ folder <+: p := by
      intro inside
      exact front (near inside ▸ List.prefix_rfl)
    rw [h.entries, replaced, if_neg front, if_neg outside]

theorem Rebuilt.nested (h : Rebuilt disk next folder name content) (nested : disk.Nested) :
    next.Nested := by
  intro above last there
  by_cases front : above <+: folder
  · exact h.get?_above front
  rw [h.entries, replaced] at there
  rw [if_neg fun longer => front ((List.prefix_append _ _).trans longer)] at there
  rw [h.entries, replaced, if_neg front]
  by_cases inside : folder <+: above ++ [last]
  · -- The file is all that is in the folder.
    rw [if_pos inside] at there
    split_ifs at there with file
    · obtain ⟨rfl, -⟩ := List.append_inj' file rfl
      exact absurd List.prefix_rfl front
    · cases there
  · rw [if_neg inside] at there
    rw [if_neg fun within => inside (within.trans (List.prefix_append _ _))]
    exact nested above last there

/-- Replacing the folder once more changes nothing. -/
theorem Rebuilt.again (h : Rebuilt disk next folder name content) (p : List CodeText) :
    next.replaced folder name content p = next.get? p := by
  rw [h.entries, replaced, replaced]
  split_ifs with front inside file
  · rfl
  · rfl
  · rfl
  · rw [h.entries, replaced, if_neg front, if_neg inside]

/-- A place that is neither made nor removed is a folder whenever it was one. -/
theorem Rebuilt.folder_iff (h : Rebuilt disk next folder name content)
    (there : p <+: folder → (disk.get? p).isSome = true)
    (gone : folder <+: p → p ≠ folder → disk.get? p ≠ some .folder) :
    next.get? p = some .folder ↔ disk.get? p = some .folder := by
  by_cases front : p <+: folder
  · exact iff_of_true (h.get?_above front) (h.folders p front (there front))
  by_cases inside : folder <+: p
  · have below : p ≠ folder := by
      rintro rfl
      exact front List.prefix_rfl
    refine iff_of_false ?_ (gone inside below)
    rw [h.get?_inside inside below]
    split_ifs <;> simp
  · rw [h.entries, replaced, if_neg front, if_neg inside]

/-- A path that steps up can be walked as before. -/
theorem Rebuilt.leads_iff (h : Rebuilt disk next folder name content)
    (bypasses : disk.Bypasses folder cwd path) (up : Path.up ∈ Path.names path) :
    next.Leads (Path.origin cwd path) (Path.names path) ↔
      disk.Leads (Path.origin cwd path) (Path.names path) := by
  have same : ∀ q ∈ Path.way (Path.origin cwd path) (Path.names path),
      next.get? q = some .folder ↔ disk.get? q = some .folder := by
    intro q mem
    obtain ⟨there, gone⟩ := bypasses.passes up q mem
    exact h.folder_iff there gone
  constructor
  · rintro ⟨folders, short⟩
    exact ⟨fun q mem => (same q mem).mp (folders q mem), short⟩
  · rintro ⟨folders, short⟩
    exact ⟨fun q mem => (same q mem).mpr (folders q mem), short⟩

/-- A path that bypasses the folder reads the same as before. -/
theorem Rebuilt.read_iff (h : Rebuilt disk next folder name content) (nested : disk.Nested)
    (bypasses : disk.Bypasses folder cwd path) :
    next.read cwd path = .ok c ↔ disk.read cwd path = .ok c := by
  have here : ∀ c, next.get? (Path.absolute cwd path) = some (.file c) ↔
      disk.get? (Path.absolute cwd path) = some (.file c) :=
    fun c => h.file_iff fun inside => absurd inside bypasses.outside
  by_cases up : Path.up ∈ Path.names path
  · rw [read_eq_ok_iff, read_eq_ok_iff, find_eq_ok_iff, find_eq_ok_iff, here,
      h.leads_iff bypasses up]
  · constructor
    · intro found
      exact read_of_nested nested up found ((here c).mp (get?_of_read found))
    · intro found
      exact read_of_nested (h.nested nested) up found ((here c).mpr (get?_of_read found))

/-- A file outside of the folder holds the same wherever it can be read. -/
theorem Rebuilt.eq_of_read {a b : ByteArray} (h : Rebuilt disk next folder name content)
    (outside : ¬ folder <+: Path.absolute cwd path) (before : disk.read cwd path = .ok a)
    (after : next.read cwd path = .ok b) : a = b := by
  have second := get?_of_read after
  rw [h.file_iff fun inside => absurd inside outside, get?_of_read before] at second
  cases second
  rfl

end Rebuilding

theorem rebuilt_of_replaceFolder {disk : Disk} {cwd : List CodeText} {dir name : CodeText}
    {content : ByteArray} (isName : OutputName name) (nested : disk.Nested)
    (home : disk.get? cwd = some .folder) (level : Path.up ∉ Path.names dir)
    (done : (disk.replaceFolder cwd dir (Path.child dir name) content).fault = none) :
    Rebuilt disk (disk.replaceFolder cwd dir (Path.child dir name) content).disk
      (Path.absolute cwd dir) name content := by
  constructor
  · exact get?_replaceFolder isName nested home level done
  · intro p front there
    exact folder_of_replaceFolder isName nested home level done front there

/-! Replacing again. -/

/-- What the texts of a folder's path and of a name in it must be for the folder to be replaced
where it is. -/
structure Fits (dir name : CodeText) : Prop where
  level : Path.up ∉ Path.names dir
  last : ∃ above step, Path.trimmed dir = above ++ [step] ∧ step ≠ Path.here
  good : pathFault? (Path.child dir name) = none
  made : pathFault? (madePath dir) = none
  short : ∀ step ∈ Path.names dir, nameTooLong step = false
  shortName : nameTooLong name = false

section Again

variable {disk : Disk} {cwd above : List CodeText} {dir name step : CodeText} {content : ByteArray}

theorem fits_of_replaceFolder (isName : OutputName name) (level : Path.up ∉ Path.names dir)
    (proper : (Path.trimmed dir).getLast? ≠ some Path.here)
    (done : (disk.replaceFolder cwd dir (Path.child dir name) content).fault = none) :
    Fits dir name := by
  obtain ⟨-, made, takes⟩ := takes_of_replaceFolder isName done
  rcases List.eq_nil_or_concat' (Path.trimmed dir) with nameless | ⟨above, step, split⟩
  · exact absurd nameless (makeFolders_ne_empty made)
  · have notHere : step ≠ Path.here := by
      rintro rfl
      exact proper (by simp [split])
    exact ⟨level, ⟨above, step, split, notHere⟩, takes.good,
      pathFault?_madePath made (Path.steps_of_trimmed split) notHere, takes.leads.short,
      takes.short⟩

theorem Fits.pathFault?_dir (fits : Fits dir name) : pathFault? dir = none := by
  refine pathFault?_of_child fits.good ?_
  rintro rfl
  obtain ⟨above, step, split, -⟩ := fits.last
  have nameless : Path.trimmed [] = [] := rfl
  simp [nameless] at split

theorem Fits.absolute (fits : Fits dir name) (cwd : List CodeText)
    (split : Path.trimmed dir = above ++ [step]) :
    Path.absolute cwd dir = above.foldl Path.follow (Path.origin cwd dir) ++ [step] := by
  obtain ⟨above', step', split', notHere⟩ := fits.last
  rw [split] at split'
  obtain ⟨rfl, same⟩ := List.append_inj' split' rfl
  cases same
  refine Path.absolute_of_trimmed cwd split notHere ?_
  rintro rfl
  exact fits.level (Path.mem_names_of_trimmed (by simp [split]))

/-- A folder that is there is removed when the texts fit. -/
theorem cleared_of_fits (fits : Fits dir name)
    (folders : ∀ p, p <+: Path.absolute cwd dir → disk.get? p = some .folder) :
    disk.cleared cwd dir =
      ⟨(disk.clear (Path.absolute cwd dir)).drop (Path.absolute cwd dir), none⟩ := by
  have present : disk.isFolder cwd dir = true :=
    isFolder_iff.mpr (find_eq_ok_iff.mpr ⟨fits.pathFault?_dir,
      leads_of_folders fits.level folders fits.short, folders _ List.prefix_rfl⟩)
  obtain ⟨above, step, split, notHere⟩ := fits.last
  rw [cleared, if_pos present]
  exact removeFolder_of_folders split notHere fits.level fits.short fits.pathFault?_dir folders

/-- Then only the last folder is missing, and it is made again. -/
theorem makeFolders_of_fits (fits : Fits dir name)
    (folders : ∀ p, p <+: Path.absolute cwd dir → disk.get? p = some .folder) :
    (disk.cleared cwd dir).disk.makeFolders cwd dir =
      ⟨(disk.cleared cwd dir).disk.put (Path.absolute cwd dir) .folder, none⟩ := by
  obtain ⟨above, step, split, notHere⟩ := fits.last
  have place := fits.absolute cwd split
  refine makeFolders_of_folders (Path.steps_of_trimmed split) notHere ?_ ?_ fits.made ?_ ?_
  · exact fun up => fits.level (Path.mem_steps_iff.mp up).1
  · exact fun n mem => fits.short n (Path.mem_steps_iff.mp mem).1
  · intro p front
    rw [Path.foldl_follow_filter] at front
    rw [get?_cleared_outside, folders p]
    · rw [place]
      exact front.trans (List.prefix_append _ _)
    · intro back
      have size := front.length_le
      have longer := back.length_le
      rw [place, List.length_append, List.length_singleton] at longer
      omega
  · rw [cleared_of_fits fits folders, get?_drop_clear (by simp [place]), if_pos List.prefix_rfl]

/-- A folder that is there is replaced without a fault when the texts fit. -/
theorem replaceFolder_of_fits (isName : OutputName name) (fits : Fits dir name)
    (folders : ∀ p, p <+: Path.absolute cwd dir → disk.get? p = some .folder) :
    (disk.replaceFolder cwd dir (Path.child dir name) content).fault = none := by
  have removed := cleared_of_fits fits folders
  have made := makeFolders_of_fits fits folders
  have root : Path.absolute cwd dir ≠ [] := by
    obtain ⟨above, step, split, -⟩ := fits.last
    simp [fits.absolute cwd split]
  have again : ∀ p, p <+: Path.absolute cwd dir →
      ((disk.cleared cwd dir).disk.makeFolders cwd dir).disk.get? p = some .folder := by
    intro p front
    rw [made, get?_put root]
    by_cases here : p = Path.absolute cwd dir
    · rw [if_pos here]
    · rw [if_neg here, get?_cleared_outside, folders p front]
      exact fun back => here (front.eq_of_length_le back.length_le)
  have takes : ((disk.cleared cwd dir).disk.makeFolders cwd dir).disk.Takes cwd dir name := by
    refine ⟨fits.good, leads_of_folders fits.level again fits.short, again _ List.prefix_rfl,
      fits.shortName, ?_⟩
    rw [made, get?_put root, if_neg (by simp), removed, get?_drop_clear root,
      if_pos (List.prefix_append _ _)]
    simp
  rw [replaceFolder_of_takes isName (by rw [removed]) (by rw [made]) takes]

/-- Replacing a folder that was just replaced changes nothing. -/
theorem Rebuilt.replaceFolder_again {next : Disk}
    (rebuilt : Rebuilt disk next (Path.absolute cwd dir) name content) (isName : OutputName name)
    (fits : Fits dir name) (nested : disk.Nested) (home : disk.get? cwd = some .folder)
    (apart : ¬ Path.absolute cwd dir <+: cwd) (p : List CodeText) :
    (next.replaceFolder cwd dir (Path.child dir name) content).disk.get? p = next.get? p := by
  have still : next.get? cwd = some .folder := by
    rcases rebuilt.get?_outside apart with same | ⟨-, -, folder⟩
    · rw [same, home]
    · exact folder
  have done : (next.replaceFolder cwd dir (Path.child dir name) content).fault = none :=
    replaceFolder_of_fits isName fits fun p => rebuilt.get?_above
  rw [get?_replaceFolder isName (rebuilt.nested nested) still fits.level done, rebuilt.again]

end Again

end XoLang.Disk
