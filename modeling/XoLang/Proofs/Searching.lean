import XoLang.Proofs.Replacing
import XoLang.Settings.Load

/-!
# Settings on a disk

Loading settings looks at a disk only through the files that it can read: which settings files
stand in the folders above a source, and what the chosen one holds. So settings stay the same when a
folder is replaced that has nothing to do with them.
-/

namespace XoLang

/-! Texts of places. -/

namespace Path

open Disk

/-- How the text of a place can start. -/
def IsRoot (root : CodeText) : Prop := root = [slash] ∨ root = [slash, slash]

section Texts

variable {root : CodeText} {place names : List CodeText}

theorem isRoot_root (path : CodeText) : IsRoot (Path.root path) := by
  rw [Path.root]
  split_ifs
  · exact Or.inr rfl
  · exact Or.inl rfl

theorem isAbsolute_text (isRoot : IsRoot root) (place : List CodeText) :
    isAbsolute (text root place) = true := by
  rcases isRoot with rfl | rfl <;> simp [isAbsolute, text]

/-- The text of a place has its names behind empty ones. -/
theorem names_text (isRoot : IsRoot root) (plain : ∀ name ∈ place, slash ∉ name) :
    ∃ count, Path.names (text root place) = List.replicate count [] ++ place := by
  have behind : ∀ path, Path.names ([slash] ++ path) = [] :: Path.names path := fun path =>
    names_slash [] path
  have inside : ∃ count, Path.names (join place) = List.replicate count [] ++ place := by
    cases place with
    | nil => exact ⟨1, rfl⟩
    | cons name place => exact ⟨0, names_join (by simp) plain⟩
  obtain ⟨count, inside⟩ := inside
  rcases isRoot with rfl | rfl
  · exact ⟨count + 1, by rw [text, behind, inside]; rfl⟩
  · refine ⟨count + 2, ?_⟩
    rw [text, ← List.singleton_append, List.append_assoc, behind, behind, inside]
    rfl

theorem foldl_follow_names (real : ∀ name ∈ names, IsName name) (place : List CodeText) :
    names.foldl follow place = place ++ names := by
  induction names generalizing place with
  | nil => simp
  | cons name names ih =>
    obtain ⟨⟨nonempty, notHere, notUp, -⟩, rest⟩ := List.forall_mem_cons.mp real
    rw [List.foldl_cons, follow_of_name (by simp [isHere, nonempty, notHere]) notUp, ih rest,
      List.append_assoc, List.singleton_append]

/-- Empty names in front go nowhere. -/
theorem foldl_follow_behind (count : Nat) (real : ∀ name ∈ names, IsName name)
    (place : List CodeText) :
    (List.replicate count [] ++ names).foldl follow place = place ++ names := by
  induction count with
  | zero => exact foldl_follow_names real place
  | succ count ih =>
    rw [List.replicate_succ, List.cons_append, List.foldl_cons, follow_of_isHere rfl, ih]

theorem not_mem_behind (count : Nat) (real : ∀ name ∈ names, IsName name) :
    up ∉ List.replicate count [] ++ names := by
  intro mem
  rcases List.mem_append.mp mem with blank | mem
  · exact absurd (List.eq_of_mem_replicate blank) (by decide)
  · exact (real up mem).2.2.1 rfl

/-- The text of a place leads there, wherever it is read. -/
theorem absolute_text (isRoot : IsRoot root) (real : ∀ name ∈ place, IsName name)
    (cwd : List CodeText) : absolute cwd (text root place) = place := by
  obtain ⟨count, split⟩ := names_text isRoot fun name mem => (real name mem).2.2.2.1
  rw [absolute, split, isAbsolute_text isRoot, if_pos rfl, foldl_follow_behind count real,
    List.nil_append]

theorem level_text (isRoot : IsRoot root) (real : ∀ name ∈ place, IsName name) :
    up ∉ Path.names (text root place) := by
  obtain ⟨count, split⟩ := names_text isRoot fun name mem => (real name mem).2.2.2.1
  rw [split]
  exact not_mem_behind count real

end Texts

end Path

/-! Searching. -/

namespace Settings

open Disk

section Searches

variable {disk next : Disk} {cwd folder reversed : List CodeText} {root path : CodeText}

theorem isName_of_fileNames : ∀ name ∈ fileNames, IsName name := by decide

theorem inFolder?_congr (same : ∀ name ∈ fileNames,
      next.isFile [] (Path.text root (folder ++ [name])) =
        disk.isFile [] (Path.text root (folder ++ [name]))) :
    inFolder? next root folder = inFolder? disk root folder := by
  rw [inFolder?, inFolder?, ← List.head?_filter, ← List.head?_filter,
    List.filter_congr (List.forall_mem_map.mpr same)]

/-- A search depends only on which settings files there are. -/
theorem nearest?_congr (same : ∀ folder, folder <+: reversed.reverse → ∀ name ∈ fileNames,
      next.isFile [] (Path.text root (folder ++ [name])) =
        disk.isFile [] (Path.text root (folder ++ [name]))) :
    nearest? next root reversed = nearest? disk root reversed := by
  induction reversed with
  | nil =>
    rw [nearest?, nearest?]
    exact inFolder?_congr (same [] List.prefix_rfl)
  | cons name above ih =>
    have here := inFolder?_congr (same _ List.prefix_rfl)
    have before := ih fun folder front => same folder
      (front.trans (by rw [List.reverse_cons]; exact List.prefix_append _ _))
    rw [nearest?, nearest?, here, before]

/-- What a search finds is a file in one of the folders. -/
theorem file_of_nearest? (found : nearest? disk root reversed = some path) :
    disk.isFile [] path = true ∧ ∃ folder name, folder <+: reversed.reverse ∧
      name ∈ fileNames ∧ path = Path.text root (folder ++ [name]) := by
  have inside : ∀ folder, inFolder? disk root folder = some path →
      disk.isFile [] path = true ∧
        ∃ name ∈ fileNames, path = Path.text root (folder ++ [name]) := by
    intro folder found
    obtain ⟨name, mem, same⟩ := List.mem_map.mp (List.mem_of_find?_eq_some found)
    exact ⟨List.find?_some found, name, mem, same.symm⟩
  induction reversed with
  | nil =>
    obtain ⟨isFile, name, mem, same⟩ := inside [] found
    exact ⟨isFile, [], name, List.prefix_rfl, mem, same⟩
  | cons first above ih =>
    rw [nearest?] at found
    split at found
    · rename_i other here
      cases found
      obtain ⟨isFile, name, mem, same⟩ := inside _ here
      exact ⟨isFile, _, name, List.prefix_rfl, mem, same⟩
    · obtain ⟨isFile, folder, name, front, mem, same⟩ := ih found
      refine ⟨isFile, folder, name, front.trans ?_, mem, same⟩
      rw [List.reverse_cons]
      exact List.prefix_append _ _

/-- Settings of a file that cannot be read: only the characters of its path can stop them. -/
theorem result_of_error {fault : DiskFault} {reader : Reader}
    (failed : disk.read cwd path = .error fault) :
    (ofFile reader disk cwd path).result =
      match pathFault? path with
      | some .nullCharacter => .error .nullCharacter
      | some .noBytes => .error .noBytes
      | _ => .ok default := by
  by_cases odd : OfCharacters fault
  · rw [ofFile, failed, (read_ofCharacters_iff odd).mp failed]
    rcases odd with rfl | rfl <;> rfl
  · have other : ∀ {spoiled}, OfCharacters spoiled → pathFault? path ≠ some spoiled := by
      intro spoiled characters found
      rw [(read_ofCharacters_iff characters).mpr found] at failed
      cases failed
      exact odd characters
    have null := other (Or.inl rfl)
    have bytes := other (Or.inr rfl)
    split
    · contradiction
    · contradiction
    · rw [ofFile, failed]
      cases fault with
      | nullCharacter => exact absurd (Or.inl rfl) odd
      | noBytes => exact absurd (Or.inr rfl) odd
      | _ => rfl

/-- Settings depend on the file only through what it holds. -/
theorem ofFile_result_congr {reader : Reader}
    (same : ∀ content, next.read cwd path = .ok content ↔ disk.read cwd path = .ok content) :
    (ofFile reader next cwd path).result = (ofFile reader disk cwd path).result := by
  cases before : disk.read cwd path with
  | ok content => rw [ofFile, ofFile, before, (same content).mpr before]
  | error fault =>
    cases after : next.read cwd path with
    | ok content =>
      rw [(same content).mp after] at before
      cases before
    | error other => rw [result_of_error after, result_of_error before]

end Searches

/-! Settings on a disk with a folder replaced. -/

section Rebuilding

variable {disk next : Disk} {cwd folder place upper : List CodeText} {name root last : CodeText}
variable {content : ByteArray} {config : Option CodeText} {reader : Reader}

/-- In a folder outside of the replaced one a file reads as before; a file is not the replaced
folder. -/
theorem read_rebuilt (h : Rebuilt disk next folder name content) (tree : disk.IsTree)
    (isRoot : Path.IsRoot root) (outside : ¬ folder <+: upper)
    (named : ∀ name ∈ upper ++ [last], IsName name) (c : ByteArray) :
    next.read cwd (Path.text root (upper ++ [last])) = .ok c ↔
      disk.read cwd (Path.text root (upper ++ [last])) = .ok c := by
  have place := Path.absolute_text isRoot named cwd
  by_cases inside : folder <+: upper ++ [last]
  · have same : folder = upper ++ [last] :=
      (List.prefix_concat_iff.mp inside).resolve_right outside
    have taken : next.get? (upper ++ [last]) = some .folder := h.get?_above (same ▸ List.prefix_rfl)
    have free := h.folders (upper ++ [last]) (same ▸ List.prefix_rfl)
    constructor
    · intro found
      have file := get?_of_read found
      rw [place, taken] at file
      cases file
    · intro found
      have file := get?_of_read found
      rw [place] at file
      rw [free (by rw [file]; rfl)] at file
      cases file
  · exact h.read_iff tree.nested
      ⟨by rwa [place], fun up => absurd up (Path.level_text isRoot named)⟩

/-- Settings for a place outside of the folder stay the same, if the path of their file bypasses
it. -/
theorem load_rebuilt (h : Rebuilt disk next folder name content) (tree : disk.IsTree)
    (there : (disk.get? place).isSome = true) (outside : ¬ folder <+: place)
    (isRoot : Path.IsRoot root)
    (elsewhere : ∀ path, config = some path → disk.Bypasses folder cwd path) :
    (load reader next cwd config (Path.text root place.dropLast)).result =
      (load reader disk cwd config (Path.text root place.dropLast)).result := by
  cases config with
  | some path =>
    exact ofFile_result_congr fun content => h.read_iff tree.nested (elsewhere path rfl)
  | none =>
    have real : ∀ name ∈ place, IsName name := tree.names place there
    have above : place.dropLast <+: place := List.dropLast_prefix place
    have home := Path.absolute_text isRoot (fun name mem => real name (above.subset mem)) cwd
    -- The paths that a search can find lie in the folders above the place.
    have same : ∀ upper, upper <+: place.dropLast → ∀ last ∈ fileNames, ∀ base c,
        next.read base (Path.text (Path.root (Path.text root place.dropLast)) (upper ++ [last])) =
            .ok c ↔
          disk.read base (Path.text (Path.root (Path.text root place.dropLast)) (upper ++ [last])) =
            .ok c := by
      intro upper front last mem base c
      refine read_rebuilt h tree (Path.isRoot_root _) ?_ ?_ c
      · exact fun inside => outside (inside.trans (front.trans above))
      · rw [List.forall_mem_append, List.forall_mem_singleton]
        exact ⟨fun name mem => real name (above.subset (front.subset mem)),
          isName_of_fileNames last mem⟩
    have found : find? next cwd (Path.text root place.dropLast) =
        find? disk cwd (Path.text root place.dropLast) := by
      rw [find?, find?, home]
      refine nearest?_congr fun upper front last mem => ?_
      rw [List.reverse_reverse] at front
      rw [Bool.eq_iff_iff, isFile_iff, isFile_iff]
      exact exists_congr fun c => same upper front last mem [] c
    rw [load, load, found]
    cases chosen : find? disk cwd (Path.text root place.dropLast) with
    | none => rfl
    | some path =>
      rw [find?, home] at chosen
      obtain ⟨-, upper, last, front, mem, rfl⟩ := file_of_nearest? chosen
      rw [List.reverse_reverse] at front
      exact ofFile_result_congr fun c => same upper front last mem cwd c

end Rebuilding

end Settings

end XoLang
