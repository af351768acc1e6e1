import Mathlib.Data.List.DropRight
import XoLang.Proofs.Entries
import XoLang.Proofs.Spreading

/-!
# Walking paths

There are no links on a disk, so a path leads to the place that its text says, provided that it can
be walked: the places on the way are folders and the names are not too long. What looking up,
reading, making and writing ask of a disk is said in these terms.
-/

namespace XoLang

/-! Names. -/

theorem pieces_append {α : Type} [DecidableEq α] (separator : α) (text more : List α) :
    Text.pieces separator (text ++ separator :: more) =
      Text.pieces separator text ++ Text.pieces separator more := by
  induction text with
  | nil => simp [Text.pieces]
  | cons c text ih =>
    rw [List.cons_append, Text.pieces, Text.pieces]
    by_cases same : c = separator
    · rw [if_pos same, if_pos same, ih]
      rfl
    · rw [if_neg same, if_neg same, ih]
      cases cut : Text.pieces separator text with
      | nil => exact absurd cut (pieces_ne_nil separator text)
      | cons piece rest => rfl

theorem pieces_of_not_mem {α : Type} [DecidableEq α] {separator : α} {text : List α}
    (h : separator ∉ text) : Text.pieces separator text = [text] := by
  induction text with
  | nil => rfl
  | cons c text ih =>
    obtain ⟨other, rest⟩ := not_or.mp (List.mem_cons.not.mp h)
    rw [Text.pieces, if_neg (Ne.symm other), ih rest]

namespace Path

section Names

variable {name path : CodeText}

theorem names_slash (path more : CodeText) :
    names (path ++ slash :: more) = names path ++ names more :=
  pieces_append slash path more

theorem names_of_not_mem (h : slash ∉ name) : names name = [name] := pieces_of_not_mem h

theorem not_mem_of_mem_names (h : name ∈ names path) : slash ∉ name := not_mem_of_mem_pieces h

theorem names_join {path : List CodeText} (nonempty : path ≠ [])
    (plain : ∀ name ∈ path, slash ∉ name) : names (join path) = path := by
  induction path with
  | nil => exact absurd rfl nonempty
  | cons name path ih =>
    obtain ⟨first, rest⟩ := List.forall_mem_cons.mp plain
    cases path with
    | nil => exact names_of_not_mem first
    | cons next path =>
      rw [join, names_slash, names_of_not_mem first, ih (by simp) rest]
      · rfl
      · simp

end Names

/-! Places. -/

/-- Where the walk of a path starts. -/
def origin (cwd : List CodeText) (path : CodeText) : List CodeText :=
  if isAbsolute path then [] else cwd

/-- The places that have to be folders when names are walked from a place. -/
def way : List CodeText → List CodeText → List (List CodeText)
  | _, [] => []
  | place, name :: names => place :: way (follow place name) names

section Places

variable {place names : List CodeText} {name : CodeText}

theorem follow_of_isHere (h : isHere name = true) : follow place name = place := by
  simp [follow, h]

theorem follow_of_name (notHere : ¬ isHere name = true) (notUp : name ≠ up) :
    follow place name = place ++ [name] := by
  rw [follow, if_neg notHere, if_neg notUp]

theorem way_concat (place names : List CodeText) (name : CodeText) :
    way place (names ++ [name]) = way place names ++ [names.foldl follow place] := by
  induction names generalizing place with
  | nil => rfl
  | cons first names ih => simp [way, ih]

/-- Empty names go nowhere. -/
theorem foldl_follow_filter (place names : List CodeText) :
    (names.filter (· ≠ [])).foldl follow place = names.foldl follow place := by
  induction names generalizing place with
  | nil => rfl
  | cons name names ih =>
    by_cases empty : name = []
    · rw [List.filter_cons_of_neg (by simp [empty]), ih, List.foldl_cons, empty]
      rfl
    · rw [List.filter_cons_of_pos (by simpa using empty), List.foldl_cons, List.foldl_cons, ih]

theorem prefix_follow (level : name ≠ up) : place <+: follow place name := by
  rw [follow, if_neg level]
  split
  · exact List.prefix_rfl
  · exact List.prefix_append place [name]

theorem prefix_foldl_follow (level : up ∉ names) : place <+: names.foldl follow place := by
  induction names generalizing place with
  | nil => exact List.prefix_rfl
  | cons name names ih =>
    obtain ⟨notUp, level⟩ := not_or.mp (List.mem_cons.not.mp level)
    exact (prefix_follow (Ne.symm notUp)).trans (ih level)

/-- Without a step up, every place on the way lies between the start and the end. -/
theorem prefix_of_mem_way (level : up ∉ names) {p : List CodeText} (mem : p ∈ way place names) :
    place <+: p ∧ p <+: names.foldl follow place := by
  induction names generalizing place with
  | nil => cases mem
  | cons name names ih =>
    obtain ⟨notUp, rest⟩ := not_or.mp (List.mem_cons.not.mp level)
    rw [way] at mem
    rcases List.mem_cons.mp mem with rfl | mem
    · exact ⟨List.prefix_rfl, prefix_foldl_follow level⟩
    · obtain ⟨front, back⟩ := ih rest mem
      exact ⟨(prefix_follow (Ne.symm notUp)).trans front, back⟩

/-- The way passes everything between the start and the end. -/
theorem mem_way_of_between (level : up ∉ names) {p : List CodeText} (front : place <+: p)
    (back : p <+: names.foldl follow place) (notEnd : p ≠ names.foldl follow place) :
    p ∈ way place names := by
  induction names generalizing place with
  | nil => exact absurd (back.eq_of_length_le front.length_le) notEnd
  | cons name names ih =>
    obtain ⟨notUp, rest⟩ := not_or.mp (List.mem_cons.not.mp level)
    rw [way, List.mem_cons]
    by_cases start : p = place
    · exact Or.inl start
    refine Or.inr (ih rest ?_ back notEnd)
    by_cases here : isHere name = true
    · rwa [follow_of_isHere here]
    · -- The first name behind the start is the one that is walked.
      rw [List.foldl_cons, follow_of_name here (Ne.symm notUp)] at back
      rw [follow_of_name here (Ne.symm notUp)]
      rcases List.prefix_or_prefix_of_prefix (prefix_foldl_follow rest) back with done | short
      · exact done
      · rcases List.prefix_concat_iff.mp short with same | short
        · exact same ▸ List.prefix_rfl
        · exact absurd (short.eq_of_length_le front.length_le) start

end Places

/-- The names of a path without the empty ones. -/
def steps (path : CodeText) : List CodeText := (names path).filter (· ≠ [])

/-- The names of a path without the empty ones at its end. -/
def trimmed (path : CodeText) : List CodeText := (names path).rdropWhile (· = [])

section Paths

variable {above : List CodeText} {path dir name : CodeText}

theorem absolute_eq (cwd : List CodeText) (path : CodeText) :
    absolute cwd path = (names path).foldl follow (origin cwd path) := rfl

theorem mem_steps_iff : name ∈ steps path ↔ name ∈ names path ∧ name ≠ [] := by
  simp [steps]

theorem foldl_follow_steps (place : List CodeText) (path : CodeText) :
    (steps path).foldl follow place = (names path).foldl follow place :=
  foldl_follow_filter place (names path)

theorem foldl_follow_trimmed (place : List CodeText) (path : CodeText) :
    (trimmed path).foldl follow place = (names path).foldl follow place := by
  rw [trimmed]
  induction names path using List.reverseRecOn with
  | nil => rfl
  | append_singleton names name ih =>
    by_cases empty : name = []
    · rw [List.rdropWhile_concat_pos _ _ _ (by simpa using empty), ih, List.foldl_concat, empty]
      rfl
    · rw [List.rdropWhile_concat_neg _ _ _ (by simpa using empty)]

theorem mem_names_of_trimmed (mem : name ∈ trimmed path) : name ∈ names path :=
  (List.rdropWhile_prefix _ _).subset mem

theorem filter_trimmed (path : CodeText) :
    (trimmed path).filter (· ≠ []) = steps path := by
  rw [trimmed, steps]
  induction names path using List.reverseRecOn with
  | nil => rfl
  | append_singleton names name ih =>
    by_cases empty : name = []
    · rw [List.rdropWhile_concat_pos _ _ _ (by simpa using empty), ih, List.filter_append, empty]
      simp
    · rw [List.rdropWhile_concat_neg _ _ _ (by simpa using empty)]

theorem ne_empty_of_trimmed (h : trimmed path = above ++ [name]) : name ≠ [] := by
  have nonempty : trimmed path ≠ [] := by simp [h]
  have last := List.rdropWhile_last_not _ _ nonempty
  simp only [trimmed] at h
  simpa [h] using last

theorem steps_of_trimmed (h : trimmed path = above ++ [name]) :
    steps path = above.filter (· ≠ []) ++ [name] := by
  rw [← filter_trimmed, h, List.filter_append]
  simp [ne_empty_of_trimmed h]

/-- The place of a path whose last name names something. -/
theorem absolute_of_trimmed (cwd : List CodeText) (h : trimmed path = above ++ [name])
    (notHere : name ≠ here) (notUp : name ≠ up) :
    absolute cwd path = above.foldl follow (origin cwd path) ++ [name] := by
  have notEmpty := ne_empty_of_trimmed h
  rw [absolute_eq, ← foldl_follow_trimmed, h, List.foldl_concat]
  exact follow_of_name (by simp [isHere, notEmpty, notHere]) notUp

theorem trimmed_of_names {names : List CodeText} (h : Path.names path = names ++ [name])
    (notEmpty : name ≠ []) : trimmed path = names ++ [name] := by
  rw [trimmed, h]
  exact List.rdropWhile_concat_neg _ _ _ (by simpa using notEmpty)

theorem child_cases (dir name : CodeText) :
    (dir = [] ∧ child dir name = name) ∨
    (∃ front, dir = front ++ [slash] ∧ child dir name = front ++ slash :: name) ∨
    (dir ≠ [] ∧ child dir name = dir ++ slash :: name) := by
  by_cases empty : dir = []
  · refine Or.inl ⟨empty, ?_⟩
    rw [empty]
    rfl
  by_cases last : dir.getLast? = some slash
  · obtain ⟨front, rfl⟩ := List.getLast?_eq_some_iff.mp last
    refine Or.inr (Or.inl ⟨front, rfl, ?_⟩)
    simp [child]
  · refine Or.inr (Or.inr ⟨empty, ?_⟩)
    simp [child, empty, last]

/-- The names of a path below another are those of the other and a last one. -/
theorem names_child (plain : slash ∉ name) (dir : CodeText) :
    ∃ above, names (child dir name) = above ++ [name] ∧
      (names dir = above ∨ names dir = above ++ [[]]) := by
  have last : names name = [name] := names_of_not_mem plain
  have nothing : names [] = [[]] := rfl
  rcases child_cases dir name with ⟨rfl, same⟩ | ⟨front, rfl, same⟩ | ⟨-, same⟩
  · exact ⟨[], by rw [same, last]; rfl, Or.inr nothing⟩
  · exact ⟨names front, by rw [same, names_slash, last], Or.inr (names_slash front [])⟩
  · exact ⟨names dir, by rw [same, names_slash, last], Or.inl rfl⟩

theorem origin_child (plain : slash ∉ name) (cwd : List CodeText) (dir : CodeText) :
    origin cwd (child dir name) = origin cwd dir := by
  have relative : name.head? ≠ some slash := fun head => plain (List.mem_of_head? head)
  have same : isAbsolute (child dir name) = isAbsolute dir := by
    rcases child_cases dir name with ⟨rfl, same⟩ | ⟨front, rfl, same⟩ | ⟨nonempty, same⟩
    · simp [isAbsolute, same, relative]
    · rw [same, isAbsolute, isAbsolute]
      cases front <;> simp
    · rw [same, isAbsolute, isAbsolute]
      cases dir with
      | nil => exact absurd rfl nonempty
      | cons c cs => simp
  rw [origin, origin, same]

end Paths

end Path

namespace Disk

section Walks

/-- Names can be walked from a place as far as the last one. -/
structure Leads (disk : Disk) (place names : List CodeText) : Prop where
  folders : ∀ p ∈ Path.way place names, disk.get? p = some .folder
  short : ∀ name ∈ names, nameTooLong name = false

variable {disk : Disk} {cwd place names : List CodeText} {path name : CodeText}

theorem leads_nil (disk : Disk) (place : List CodeText) : disk.Leads place [] :=
  ⟨by simp [Path.way], by simp⟩

theorem leads_cons_iff : disk.Leads place (name :: names) ↔
    disk.get? place = some .folder ∧ nameTooLong name = false ∧
      disk.Leads (Path.follow place name) names := by
  constructor
  · rintro ⟨folders, short⟩
    rw [Path.way, List.forall_mem_cons] at folders
    rw [List.forall_mem_cons] at short
    exact ⟨folders.1, short.1, folders.2, short.2⟩
  · rintro ⟨folder, first, folders, short⟩
    exact ⟨List.forall_mem_cons.mpr ⟨folder, folders⟩, List.forall_mem_cons.mpr ⟨first, short⟩⟩

theorem leads_concat_iff : disk.Leads place (names ++ [name]) ↔
    disk.Leads place names ∧ disk.get? (names.foldl Path.follow place) = some .folder ∧
      nameTooLong name = false := by
  constructor
  · rintro ⟨folders, short⟩
    rw [Path.way_concat, List.forall_mem_append] at folders
    rw [List.forall_mem_append] at short
    exact ⟨⟨folders.1, short.1⟩, folders.2 _ (by simp), short.2 _ (by simp)⟩
  · rintro ⟨⟨folders, short⟩, folder, last⟩
    constructor
    · rw [Path.way_concat, List.forall_mem_append]
      exact ⟨folders, by simpa using folder⟩
    · rw [List.forall_mem_append]
      exact ⟨short, by simpa using last⟩

/-- Names without a step up can be walked where all places up to the end are folders. -/
theorem leads_of_folders (level : Path.up ∉ names)
    (folders : ∀ p, p <+: names.foldl Path.follow place → disk.get? p = some .folder)
    (short : ∀ name ∈ names, nameTooLong name = false) : disk.Leads place names :=
  ⟨fun p mem => folders p (Path.prefix_of_mem_way level mem).2, short⟩

theorem walk_eq_ok_iff {q : List CodeText} : disk.walk place names = .ok q ↔
    disk.Leads place names ∧ q = names.foldl Path.follow place ∧ (disk.get? q).isSome = true := by
  induction names generalizing place with
  | nil =>
    rw [walk]
    constructor
    · intro h
      split at h
      · rename_i there
        cases h
        exact ⟨leads_nil disk _, rfl, there⟩
      · cases h
    · rintro ⟨-, rfl, there⟩
      exact if_pos there
  | cons name names ih =>
    rw [walk, leads_cons_iff, List.foldl_cons]
    cases found : disk.get? place with
    | none => simp
    | some entry =>
      cases entry with
      | file content => simp
      | folder =>
        by_cases long : nameTooLong name = true
        · simp [long]
        · simp [long, ih]

theorem resolve_eq_ok_iff {q : List CodeText} : disk.resolve cwd path = .ok q ↔
    pathFault? path = none ∧ disk.Leads (Path.origin cwd path) (Path.names path) ∧
      q = Path.absolute cwd path ∧ (disk.get? q).isSome = true := by
  rw [resolve]
  cases pathFault? path with
  | some fault => simp
  | none =>
    simp only [true_and]
    exact walk_eq_ok_iff

theorem find_eq_ok_iff {entry : Entry} : disk.find cwd path = .ok entry ↔
    pathFault? path = none ∧ disk.Leads (Path.origin cwd path) (Path.names path) ∧
      disk.get? (Path.absolute cwd path) = some entry := by
  rw [find]
  constructor
  · intro h
    split at h
    · cases h
    · rename_i place found
      obtain ⟨good, leads, rfl, there⟩ := resolve_eq_ok_iff.mp found
      split at h
      · rename_i other here
        cases h
        exact ⟨good, leads, here⟩
      · cases h
  · rintro ⟨good, leads, here⟩
    have found := resolve_eq_ok_iff.mpr ⟨good, leads, rfl, by rw [here]; rfl⟩
    simp [found, here]

/-- A path without a step up leads to the same on a disk that keeps what is on its way. -/
theorem find_of_kept {next : Disk} {entry : Entry} (level : Path.up ∉ Path.names path)
    (found : disk.find cwd path = .ok entry)
    (kept : ∀ q, q <+: Path.absolute cwd path → (disk.get? q).isSome = true →
      next.get? q = disk.get? q) : next.find cwd path = .ok entry := by
  obtain ⟨good, leads, here⟩ := find_eq_ok_iff.mp found
  refine find_eq_ok_iff.mpr ⟨good, ⟨?_, leads.short⟩, ?_⟩
  · intro q mem
    have folder := leads.folders q mem
    rw [kept q (Path.prefix_of_mem_way level mem).2 (by rw [folder]; rfl), folder]
  · rw [kept _ List.prefix_rfl (by rw [here]; rfl), here]

theorem isFolder_iff : disk.isFolder cwd path = true ↔ disk.find cwd path = .ok .folder := by
  rw [isFolder]
  split
  · rename_i found
    simp [found]
  · rename_i other
    simpa using other

theorem read_eq_ok_iff {content : ByteArray} : disk.read cwd path = .ok content ↔
    disk.find cwd path = .ok (.file content) := by
  rw [read]
  cases disk.find cwd path with
  | error fault => simp
  | ok entry => cases entry <;> simp

theorem get?_of_read {content : ByteArray} (found : disk.read cwd path = .ok content) :
    disk.get? (Path.absolute cwd path) = some (.file content) :=
  (find_eq_ok_iff.mp (read_eq_ok_iff.mp found)).2.2

/-- A fault of the characters of a path. -/
def OfCharacters (fault : DiskFault) : Prop := fault = .nullCharacter ∨ fault = .noBytes

theorem walk_ne_ofCharacters {fault : DiskFault} (odd : OfCharacters fault) (disk : Disk)
    (place names : List CodeText) : disk.walk place names ≠ .error fault := by
  induction names generalizing place with
  | nil =>
    rw [walk]
    rcases odd with rfl | rfl <;> split_ifs <;> simp
  | cons name names ih =>
    rw [walk]
    split
    · rcases odd with rfl | rfl <;> simp
    · rcases odd with rfl | rfl <;> simp
    · split_ifs
      · rcases odd with rfl | rfl <;> simp
      · exact ih _

/-- A fault of the characters is found before the disk is looked at. -/
theorem read_ofCharacters_iff {fault : DiskFault} (odd : OfCharacters fault) :
    disk.read cwd path = .error fault ↔ pathFault? path = some fault := by
  rw [read, find, resolve]
  cases pathFault? path with
  | some fault => simp
  | none =>
    simp only [reduceCtorEq, iff_false]
    intro h
    cases walked : disk.walk (if Path.isAbsolute path then [] else cwd) (Path.names path) with
    | error other =>
      simp only [walked, Except.error.injEq] at h
      exact walk_ne_ofCharacters odd disk _ _ (h ▸ walked)
    | ok place =>
      simp only [walked] at h
      cases found : disk.get? place with
      | none => rcases odd with rfl | rfl <;> simp [found] at h
      | some entry => rcases odd with rfl | rfl <;> cases entry <;> simp [found] at h

/-- A path without a step up that reads a file reads it on every disk that has it, since what a file
stands in are folders. -/
theorem read_of_nested {next : Disk} {content : ByteArray} (nested : next.Nested)
    (level : Path.up ∉ Path.names path) (found : disk.read cwd path = .ok content)
    (here : next.get? (Path.absolute cwd path) = some (.file content)) :
    next.read cwd path = .ok content := by
  obtain ⟨good, leads, place⟩ := find_eq_ok_iff.mp (read_eq_ok_iff.mp found)
  refine read_eq_ok_iff.mpr (find_eq_ok_iff.mpr ⟨good, ⟨?_, leads.short⟩, here⟩)
  intro q mem
  have front : q <+: Path.absolute cwd path := (Path.prefix_of_mem_way level mem).2
  refine nested.get?_above (by rw [here]; rfl) front ?_
  rintro rfl
  have folder := leads.folders _ mem
  rw [place] at folder
  cases folder

theorem isFile_iff : disk.isFile cwd path = true ↔
    ∃ content, disk.read cwd path = .ok content := by
  rw [isFile, read]
  cases disk.find cwd path with
  | error fault => simp
  | ok entry => cases entry <;> simp

theorem parent_eq (disk : Disk) (cwd : List CodeText) (path : CodeText) :
    disk.parent cwd path =
      match pathFault? path with
      | some fault => .error fault
      | none =>
        match disk.walk (Path.origin cwd path) (Path.trimmed path).dropLast with
        | .error fault => .error fault
        | .ok folder =>
          match disk.get? folder with
          | some .folder =>
            if (Path.trimmed path).getLast?.any nameTooLong then .error .tooLong
            else .ok (folder, (Path.trimmed path).getLast?)
          | _ => .error .notFolder := rfl

/-- A path leads to a name in a folder when all names before it can be walked. -/
theorem parent_eq_ok_some_iff {folder : List CodeText} :
    disk.parent cwd path = .ok (folder, some name) ↔
      pathFault? path = none ∧ ∃ above, Path.trimmed path = above ++ [name] ∧
        disk.Leads (Path.origin cwd path) (above ++ [name]) ∧
        folder = above.foldl Path.follow (Path.origin cwd path) := by
  rw [parent_eq]
  cases pathFault? path with
  | some fault => simp
  | none =>
    simp only [true_and]
    constructor
    · intro h
      split at h
      · cases h
      rename_i reached walked
      obtain ⟨leads, rfl, -⟩ := walk_eq_ok_iff.mp walked
      split at h
      · rename_i inside
        split_ifs at h with long
        obtain ⟨rfl, last⟩ := Prod.mk.inj (Except.ok.inj h)
        obtain ⟨above, split⟩ := List.getLast?_eq_some_iff.mp last
        rw [split, List.dropLast_concat] at leads inside
        refine ⟨above, split, leads_concat_iff.mpr ⟨leads, inside, ?_⟩, by
          rw [split, List.dropLast_concat]⟩
        simpa [last] using long
      · cases h
    · rintro ⟨above, split, leads, rfl⟩
      obtain ⟨leads, inside, short⟩ := leads_concat_iff.mp leads
      have walked := walk_eq_ok_iff.mpr ⟨leads, rfl, by rw [inside]; rfl⟩
      simp [split, walked, inside, short]

end Walks

end Disk

end XoLang
