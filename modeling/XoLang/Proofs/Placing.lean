import XoLang.Proofs.Walking

/-!
# Making, removing and writing

What making folders along a path, removing a folder and writing a file do to a disk is said for
every place, whether they succeed or stop half-way. Making only adds folders on the way, and
removing only takes away what is in the folder.
-/

namespace XoLang.Disk

/-! Faults of paths. -/

theorem size_append (path more : CodeText) :
    Path.size (path ++ more) = Path.size path + Path.size more := by
  induction path with
  | nil => simp [Path.size]
  | cons point path ih => rw [List.cons_append, Path.size, Path.size, ih, Nat.add_assoc]

theorem pathFault?_append {path more : CodeText} (good : pathFault? (path ++ more) = none)
    (nonempty : path ≠ []) : pathFault? path = none := by
  rw [pathFault?] at good ⊢
  split_ifs at good with odd null empty long
  have bytes : ¬ path.any (fun point => (Path.pointSize? point).isNone) = true := by
    intro some
    apply odd
    rw [List.any_append, some, Bool.true_or]
  have noNull : ¬ path.contains (.char (Char.ofNat 0)) = true := by
    intro mem
    apply null
    rw [List.contains_iff_mem, List.mem_append]
    exact Or.inl (List.contains_iff_mem.mp mem)
  have size : Path.size path ≤ 4095 := by
    rw [size_append] at long
    omega
  rw [if_neg bytes, if_neg noNull, if_neg (by simpa using nonempty), if_neg (by omega)]

theorem pathFault?_of_child {dir name : CodeText} (good : pathFault? (Path.child dir name) = none)
    (nonempty : dir ≠ []) : pathFault? dir = none := by
  rcases Path.child_cases dir name with ⟨empty, -⟩ | ⟨front, rfl, same⟩ | ⟨-, same⟩
  · exact absurd empty nonempty
  · rw [same, List.append_cons] at good
    exact pathFault?_append good nonempty
  · rw [same] at good
    exact pathFault?_append good nonempty

/-! Making folders. -/

section Making

variable {disk next : Disk} {cwd reversed : List CodeText} {absolute : Bool} {path : CodeText}
variable {fresh : List CodeText → Prop}

theorem makeFolder_eq_ok_iff : disk.makeFolder cwd path = .ok next ↔
    pathFault? path = none ∧ ∃ above name, Path.trimmed path = above ++ [name] ∧
      disk.Leads (Path.origin cwd path) (above ++ [name]) ∧ name ≠ Path.here ∧ name ≠ Path.up ∧
      disk.get? (Path.absolute cwd path) = none ∧
      next = disk.put (Path.absolute cwd path) .folder := by
  rw [makeFolder]
  constructor
  · intro h
    split at h
    · cases h
    · cases h
    · rename_i folder name found
      obtain ⟨good, above, split, leads, rfl⟩ := parent_eq_ok_some_iff.mp found
      split_ifs at h with taken
      simp only [Bool.or_eq_true, decide_eq_true_eq, not_or, Option.isSome_iff_ne_none,
        ne_eq, not_not] at taken
      obtain ⟨⟨notHere, notUp⟩, nothing⟩ := taken
      have place := Path.absolute_of_trimmed cwd split notHere notUp
      rw [← place] at h nothing
      exact ⟨good, above, name, split, leads, notHere, notUp, nothing, (Except.ok.inj h).symm⟩
  · rintro ⟨good, above, name, split, leads, notHere, notUp, nothing, rfl⟩
    have found := parent_eq_ok_some_iff.mpr ⟨good, above, split, leads, rfl⟩
    have place := Path.absolute_of_trimmed cwd split notHere notUp
    rw [place] at nothing ⊢
    simp [found, notHere, notUp, nothing]

theorem grown_makeFolder (new : fresh (Path.absolute cwd path)) :
    disk.GrownBy fresh (Change.of disk (disk.makeFolder cwd path)).disk := by
  cases made : disk.makeFolder cwd path with
  | error fault => exact GrownBy.refl fresh disk
  | ok next =>
    obtain ⟨-, _, _, _, _, _, _, nothing, rfl⟩ := makeFolder_eq_ok_iff.mp made
    exact GrownBy.put nothing new

/-- What making the folder under a last name can do: it is made at once, or the folders before it
are made first and then it is made, needs no making, or cannot be made. -/
theorem makeFoldersTo_cases (cwd : List CodeText) (absolute : Bool) (name : CodeText)
    (above : List CodeText) (disk : Disk) :
    (makeFoldersTo cwd absolute (name :: above) disk =
        .of disk (disk.makeFolder cwd (pathOf absolute (name :: above)))) ∨
    (name = Path.here ∧ makeFoldersTo cwd absolute (name :: above) disk =
        ⟨(makeFoldersTo cwd absolute above disk).disk, none⟩) ∨
    (makeFoldersTo cwd absolute (name :: above) disk =
        .of (makeFoldersTo cwd absolute above disk).disk
          ((makeFoldersTo cwd absolute above disk).disk.makeFolder cwd
            (pathOf absolute (name :: above)))) ∨
    ∃ fault, makeFoldersTo cwd absolute (name :: above) disk =
        ⟨(makeFoldersTo cwd absolute above disk).disk, some fault⟩ := by
  rw [makeFoldersTo]
  simp only
  split
  · exact Or.inl rfl
  · refine Or.inr ?_
    split
    · split
      · exact Or.inl ⟨by assumption, rfl⟩
      · exact Or.inr (Or.inl rfl)
    · split
      · exact Or.inl ⟨by assumption, rfl⟩
      · exact Or.inr (Or.inl rfl)
    · exact Or.inr (Or.inr ⟨_, rfl⟩)

/-- Making folders along a path only makes folders, at places on the way. -/
theorem grown_makeFoldersTo
    (new : ∀ tail, tail <:+ reversed → fresh (Path.absolute cwd (pathOf absolute tail)))
    (disk : Disk) : disk.GrownBy fresh (makeFoldersTo cwd absolute reversed disk).disk := by
  induction reversed with
  | nil =>
    rw [makeFoldersTo]
    exact grown_makeFolder (new [] List.suffix_rfl)
  | cons name above ih =>
    have here := new (name :: above) List.suffix_rfl
    have before := ih fun tail back => new tail (back.trans (List.suffix_cons name above))
    rcases makeFoldersTo_cases cwd absolute name above disk with
      made | ⟨-, made⟩ | made | ⟨fault, made⟩
    · rw [made]
      exact grown_makeFolder here
    · rw [made]
      exact before
    · rw [made]
      exact before.trans (grown_makeFolder here)
    · rw [made]
      exact before

/-- Names that stand between slashes. -/
def PlainNames (names : List CodeText) : Prop := ∀ name ∈ names, name ≠ [] ∧ Path.slash ∉ name

theorem plainNames_steps (path : CodeText) : PlainNames (Path.steps path) := by
  intro name mem
  obtain ⟨mem, nonempty⟩ := Path.mem_steps_iff.mp mem
  exact ⟨nonempty, Path.not_mem_of_mem_names mem⟩

theorem plainNames_reverse {names : List CodeText} (plain : PlainNames names) :
    PlainNames names.reverse :=
  fun name mem => plain name (List.mem_reverse.mp mem)

theorem head_join {names : List CodeText} (plain : PlainNames names) :
    (Path.join names).head? ≠ some Path.slash := by
  cases names with
  | nil => simp [Path.join]
  | cons name names =>
    obtain ⟨nonempty, noSlash⟩ := plain name List.mem_cons_self
    cases name with
    | nil => exact absurd rfl nonempty
    | cons c cs =>
      have other : c ≠ Path.slash := fun same => noSlash (by simp [same])
      cases names with
      | nil => simpa [Path.join] using other
      | cons next names => simpa [Path.join] using other

theorem isAbsolute_pathOf (absolute : Bool) (plain : PlainNames reversed) :
    Path.isAbsolute (pathOf absolute reversed) = absolute := by
  have ordered := plainNames_reverse plain
  cases absolute with
  | false => simpa [Path.isAbsolute, pathOf] using head_join ordered
  | true => simp [Path.isAbsolute, pathOf]

theorem names_pathOf (absolute : Bool) (plain : PlainNames reversed) (nonempty : reversed ≠ []) :
    Path.names (pathOf absolute reversed) =
      (if absolute then [[]] else []) ++ reversed.reverse := by
  have joined : Path.names (Path.join reversed.reverse) = reversed.reverse :=
    Path.names_join (by simpa using nonempty)
      fun name mem => (plain name (List.mem_reverse.mp mem)).2
  cases absolute with
  | false => simpa [pathOf] using joined
  | true =>
    have split := Path.names_slash [] (Path.join reversed.reverse)
    rw [joined] at split
    exact split

theorem mem_names_pathOf (plain : PlainNames reversed) {name : CodeText}
    (mem : name ∈ Path.names (pathOf absolute reversed)) : name = [] ∨ name ∈ reversed := by
  by_cases nonempty : reversed = []
  · subst nonempty
    have empty : ∀ absolute, ∀ name ∈ Path.names (pathOf absolute []), name = [] := by decide
    exact Or.inl (empty absolute name mem)
  · rw [names_pathOf absolute plain nonempty] at mem
    rcases List.mem_append.mp mem with root | mem
    · split_ifs at root
      · exact Or.inl (by simpa using root)
      · cases root
    · exact Or.inr (List.mem_reverse.mp mem)

/-- The place of a path that was put together from names. -/
theorem absolute_pathOf (absolute : Bool) (plain : PlainNames reversed) (cwd : List CodeText) :
    Path.absolute cwd (pathOf absolute reversed) =
      reversed.reverse.foldl Path.follow (if absolute then [] else cwd) := by
  rw [Path.absolute_eq, Path.origin, isAbsolute_pathOf absolute plain]
  by_cases nonempty : reversed = []
  · subst nonempty
    cases absolute <;> rfl
  · rw [names_pathOf absolute plain nonempty]
    cases absolute <;> rfl

theorem grown_makeFolders (disk : Disk) (level : Path.up ∉ Path.names path) :
    disk.GrownBy (· <+: Path.absolute cwd path) (disk.makeFolders cwd path).disk := by
  refine grown_makeFoldersTo (fun tail back => ?_) disk
  have plain : PlainNames tail := by
    intro name mem
    exact plainNames_steps path name (List.mem_reverse.mp (back.subset mem))
  obtain ⟨front, split⟩ := back
  have names : Path.steps path = tail.reverse ++ front.reverse := by
    rw [← List.reverse_append, split]
    exact (List.reverse_reverse _).symm
  have rest : Path.up ∉ front.reverse := by
    intro mem
    have inside : Path.up ∈ Path.steps path := by
      rw [names]
      exact List.mem_append_right _ mem
    exact level (Path.mem_steps_iff.mp inside).1
  have place : Path.absolute cwd path =
      front.reverse.foldl Path.follow (Path.absolute cwd (pathOf (Path.isAbsolute path) tail)) := by
    rw [absolute_pathOf _ plain, Path.absolute_eq, ← Path.foldl_follow_steps, names,
      List.foldl_append]
    rfl
  rw [place]
  exact Path.prefix_foldl_follow rest

/-- A path without a name is that of no folder that can be made. -/
theorem makeFolders_ne_empty (made : (disk.makeFolders cwd path).fault = none) :
    Path.trimmed path ≠ [] := by
  intro nameless
  have names : (Path.names path).filter (· ≠ []) = [] := by
    rw [← Path.steps, ← Path.filter_trimmed, nameless]
    rfl
  rw [makeFolders, names, List.reverse_nil, makeFoldersTo] at made
  cases done : disk.makeFolder cwd (pathOf (Path.isAbsolute path) []) with
  | error fault =>
    rw [done] at made
    cases made
  | ok next =>
    obtain ⟨-, above, name, split, -⟩ := makeFolder_eq_ok_iff.mp done
    have nothing : ∀ absolute, Path.trimmed (pathOf absolute []) = [] := by decide
    rw [nothing] at split
    simp at split

theorem pathOf_cons (absolute : Bool) (name : CodeText) (above : List CodeText) :
    ∃ more, pathOf absolute (name :: above) = pathOf absolute above ++ more := by
  have joined : ∀ names, ∃ more, Path.join (names ++ [name]) = Path.join names ++ more := by
    intro names
    induction names with
    | nil => exact ⟨name, rfl⟩
    | cons first names ih =>
      obtain ⟨more, same⟩ := ih
      cases names with
      | nil => exact ⟨Path.slash :: name, rfl⟩
      | cons second names =>
        refine ⟨more, ?_⟩
        show first ++ Path.slash :: Path.join (second :: names ++ [name]) =
          (first ++ Path.slash :: Path.join (second :: names)) ++ more
        rw [same, List.append_assoc, List.cons_append]
  obtain ⟨more, same⟩ := joined above.reverse
  refine ⟨more, ?_⟩
  rw [pathOf, pathOf, List.reverse_cons, same, List.append_assoc]

/-- A path that was put together leads to a folder when there are only folders on the way. -/
theorem has_pathOf (plain : PlainNames reversed) (level : Path.up ∉ reversed)
    (short : ∀ name ∈ reversed, nameTooLong name = false)
    (folders : ∀ p, p <+: reversed.reverse.foldl Path.follow (if absolute then [] else cwd) →
      disk.get? p = some .folder)
    (good : pathFault? (pathOf absolute reversed) = none) :
    disk.has cwd (pathOf absolute reversed) = true := by
  have place := absolute_pathOf absolute plain cwd
  have found : disk.resolve cwd (pathOf absolute reversed) =
      .ok (Path.absolute cwd (pathOf absolute reversed)) := by
    refine resolve_eq_ok_iff.mpr ⟨good, leads_of_folders ?_ ?_ ?_, rfl, ?_⟩
    · intro up
      rcases mem_names_pathOf plain up with empty | mem
      · exact absurd empty (by decide)
      · exact level mem
    · intro p front
      rw [← Path.absolute_eq, place] at front
      exact folders p front
    · intro name mem
      rcases mem_names_pathOf plain mem with rfl | mem
      · decide
      · exact short name mem
    · rw [place, folders _ List.prefix_rfl]
      rfl
  rw [has, found]

end Making

/-! Making the last folder. -/

section Last

variable {disk : Disk} {cwd above : List CodeText} {path name : CodeText}

/-- The path under which the last folder is made. -/
def madePath (path : CodeText) : CodeText := pathOf (Path.isAbsolute path) (Path.steps path).reverse

theorem madePath_eq (split : Path.steps path = above ++ [name]) :
    madePath path = pathOf (Path.isAbsolute path) (name :: above.reverse) := by
  rw [madePath, split, List.reverse_append, List.reverse_singleton, List.singleton_append]

theorem makeFolders_eq (disk : Disk) (cwd : List CodeText)
    (split : Path.steps path = above ++ [name]) : disk.makeFolders cwd path =
      makeFoldersTo cwd (Path.isAbsolute path) (name :: above.reverse) disk := by
  show makeFoldersTo cwd (Path.isAbsolute path) (Path.steps path).reverse disk = _
  rw [split, List.reverse_append, List.reverse_singleton, List.singleton_append]

/-- When folders were made up to a proper name, the last one was made under its own path. -/
theorem pathFault?_madePath (made : (disk.makeFolders cwd path).fault = none)
    (split : Path.steps path = above ++ [name]) (proper : name ≠ Path.here) :
    pathFault? (madePath path) = none := by
  have good : ∀ before : Disk, (Change.of before (before.makeFolder cwd (madePath path))).fault =
      none → pathFault? (madePath path) = none := by
    intro before done
    cases last : before.makeFolder cwd (madePath path) with
    | error fault =>
      rw [last] at done
      cases done
    | ok next => exact (makeFolder_eq_ok_iff.mp last).1
  rw [makeFolders_eq disk cwd split] at made
  rw [madePath_eq split] at good ⊢
  rcases makeFoldersTo_cases cwd (Path.isAbsolute path) name above.reverse disk with
    done | ⟨here, -⟩ | done | ⟨fault, done⟩
  · rw [done] at made
    exact good _ made
  · exact absurd here proper
  · rw [done] at made
    exact good _ made
  · rw [done] at made
    cases made

theorem plainNames_madePath (split : Path.steps path = above ++ [name]) :
    PlainNames (name :: above.reverse) := by
  have plain := plainNames_reverse (plainNames_steps path)
  rwa [split, List.reverse_append] at plain

theorem origin_madePath (cwd : List CodeText) (split : Path.steps path = above ++ [name]) :
    Path.origin cwd (madePath path) = Path.origin cwd path := by
  rw [Path.origin, madePath_eq split, isAbsolute_pathOf _ (plainNames_madePath split)]
  rfl

theorem trimmed_madePath (split : Path.steps path = above ++ [name]) :
    Path.trimmed (madePath path) =
      (if Path.isAbsolute path then [[]] else []) ++ above ++ [name] := by
  have plain := plainNames_madePath split
  have names := names_pathOf (Path.isAbsolute path) plain (by simp)
  rw [List.reverse_cons, List.reverse_reverse, ← List.append_assoc, ← madePath_eq split] at names
  exact Path.trimmed_of_names names (plain name List.mem_cons_self).1

theorem absolute_madePath (cwd : List CodeText) (path : CodeText) :
    Path.absolute cwd (madePath path) = Path.absolute cwd path := by
  rw [madePath, absolute_pathOf _ (plainNames_reverse (plainNames_steps path)),
    List.reverse_reverse, Path.foldl_follow_steps]
  rfl

/-- Where all folders but the last are there, the last one can be made. -/
theorem makeFolder_madePath (split : Path.steps path = above ++ [name]) (proper : name ≠ Path.here)
    (level : Path.up ∉ Path.steps path) (short : ∀ name ∈ Path.steps path, nameTooLong name = false)
    (good : pathFault? (madePath path) = none)
    (folders : ∀ p, p <+: above.foldl Path.follow (Path.origin cwd path) →
      disk.get? p = some .folder)
    (free : disk.get? (Path.absolute cwd path) = none) :
    disk.makeFolder cwd (madePath path) = .ok (disk.put (Path.absolute cwd path) .folder) := by
  have reached : ((if Path.isAbsolute path then [[]] else []) ++ above).foldl Path.follow
      (Path.origin cwd path) = above.foldl Path.follow (Path.origin cwd path) := by
    rw [List.foldl_append]
    split_ifs <;> rfl
  rw [split] at level short
  have notUp : name ≠ Path.up := by
    rintro rfl
    exact level (by simp)
  refine makeFolder_eq_ok_iff.mpr ⟨good, _, name, trimmed_madePath split, ?_, proper, notUp, ?_, ?_⟩
  · rw [origin_madePath cwd split, leads_concat_iff, reached]
    refine ⟨leads_of_folders ?_ ?_ ?_, folders _ List.prefix_rfl, short name (by simp)⟩
    · intro up
      rcases List.mem_append.mp up with root | mem
      · split_ifs at root <;> simp [Path.up] at root
      · exact level (List.mem_append_left _ mem)
    · rw [reached]
      exact folders
    · intro n mem
      rcases List.mem_append.mp mem with root | mem
      · split_ifs at root
        · rw [List.mem_singleton.mp root]
          decide
        · cases root
      · exact short n (List.mem_append_left _ mem)
  · rw [absolute_madePath cwd path]
    exact free
  · rw [absolute_madePath cwd path]

theorem makeFolders_of_folders (split : Path.steps path = above ++ [name])
    (proper : name ≠ Path.here) (level : Path.up ∉ Path.steps path)
    (short : ∀ name ∈ Path.steps path, nameTooLong name = false)
    (good : pathFault? (madePath path) = none)
    (folders : ∀ p, p <+: above.foldl Path.follow (Path.origin cwd path) →
      disk.get? p = some .folder)
    (free : disk.get? (Path.absolute cwd path) = none) :
    disk.makeFolders cwd path = ⟨disk.put (Path.absolute cwd path) .folder, none⟩ := by
  have made := makeFolder_madePath split proper level short good folders free
  rw [makeFolders_eq disk cwd split, makeFoldersTo]
  simp only
  rw [if_pos, ← madePath_eq split, made]
  · rfl
  · -- The path before the last name is empty or leads to a folder.
    rw [Bool.or_eq_true]
    by_cases empty : pathOf (Path.isAbsolute path) above.reverse = []
    · exact Or.inl (by simp [empty])
    · rw [split] at level short
      refine Or.inr (has_pathOf ?_ ?_ ?_ ?_ ?_)
      · exact fun n mem => plainNames_madePath split n (List.mem_cons_of_mem _ mem)
      · exact fun up => level (List.mem_append_left _ (List.mem_reverse.mp up))
      · exact fun n mem => short n (List.mem_append_left _ (List.mem_reverse.mp mem))
      · rw [List.reverse_reverse]
        exact folders
      · obtain ⟨more, same⟩ := pathOf_cons (Path.isAbsolute path) name above.reverse
        rw [madePath_eq split, same] at good
        exact pathFault?_append good empty

end Last

/-! Removing a folder. -/

section Removing

variable {disk : Disk} {cwd p : List CodeText} {path : CodeText}

/-- What removing a folder can do: nothing, only clear it, or remove it altogether. -/
theorem removeFolder_cases (disk : Disk) (cwd : List CodeText) (path : CodeText) :
    (∃ fault, disk.removeFolder cwd path = ⟨disk, some fault⟩) ∨
    (∃ fault, disk.removeFolder cwd path =
      ⟨disk.clear (Path.absolute cwd path), some fault⟩) ∨
    (Path.absolute cwd path ≠ [] ∧ disk.removeFolder cwd path =
      ⟨(disk.clear (Path.absolute cwd path)).drop (Path.absolute cwd path), none⟩) := by
  rw [removeFolder]
  split
  · exact Or.inl ⟨_, rfl⟩
  · rename_i place found
    obtain ⟨-, -, rfl, -⟩ := resolve_eq_ok_iff.mp found
    refine Or.inr ?_
    simp only
    split
    · exact Or.inl ⟨_, rfl⟩
    · exact Or.inl ⟨_, rfl⟩
    · rename_i folder name inside
      obtain ⟨-, above, split, -, -⟩ := parent_eq_ok_some_iff.mp inside
      split_ifs with special
      · exact Or.inl ⟨_, rfl⟩
      · simp only [Bool.or_eq_true, decide_eq_true_eq, not_or] at special
        refine Or.inr ⟨?_, rfl⟩
        rw [Path.absolute_of_trimmed cwd split special.1 special.2]
        simp

theorem get?_removeFolder_outside (outside : ¬ Path.absolute cwd path <+: p) :
    (disk.removeFolder cwd path).disk.get? p = disk.get? p := by
  rcases removeFolder_cases disk cwd path with ⟨fault, done⟩ | ⟨fault, done⟩ | ⟨proper, done⟩
  · rw [done]
  · rw [done, get?_clear, if_neg fun below => outside below.1]
  · rw [done, get?_drop_clear proper, if_neg outside]

theorem get?_removeFolder_inside (removed : (disk.removeFolder cwd path).fault = none)
    (inside : Path.absolute cwd path <+: p) : (disk.removeFolder cwd path).disk.get? p = none := by
  rcases removeFolder_cases disk cwd path with ⟨fault, done⟩ | ⟨fault, done⟩ | ⟨proper, done⟩
  · rw [done] at removed
    cases removed
  · rw [done] at removed
    cases removed
  · rw [done, get?_drop_clear proper, if_pos inside]

/-- Where there are only folders on the way, a folder is removed under a proper name. -/
theorem removeFolder_of_folders {above : List CodeText} {name : CodeText}
    (split : Path.trimmed path = above ++ [name]) (proper : name ≠ Path.here)
    (level : Path.up ∉ Path.names path) (short : ∀ name ∈ Path.names path, nameTooLong name = false)
    (good : pathFault? path = none)
    (folders : ∀ p, p <+: Path.absolute cwd path → disk.get? p = some .folder) :
    disk.removeFolder cwd path =
      ⟨(disk.clear (Path.absolute cwd path)).drop (Path.absolute cwd path), none⟩ := by
  have mem_of_mem : ∀ n ∈ above ++ [name], n ∈ Path.names path := by
    intro n mem
    rw [← split] at mem
    exact Path.mem_names_of_trimmed mem
  have found : disk.resolve cwd path = .ok (Path.absolute cwd path) := by
    refine resolve_eq_ok_iff.mpr ⟨good, leads_of_folders level folders short, rfl, ?_⟩
    rw [folders _ List.prefix_rfl]
    rfl
  have inside : (disk.clear (Path.absolute cwd path)).parent cwd path =
      .ok (above.foldl Path.follow (Path.origin cwd path), some name) := by
    refine parent_eq_ok_some_iff.mpr ⟨good, above, split, leads_of_folders ?_ ?_ ?_, rfl⟩
    · exact fun up => level (mem_of_mem _ up)
    · intro p front
      rw [← split, Path.foldl_follow_trimmed, ← Path.absolute_eq] at front
      rw [get?_clear, if_neg, folders p front]
      rintro ⟨back, other⟩
      exact other (front.eq_of_length_le back.length_le)
    · exact fun n mem => short n (mem_of_mem n mem)
  have notUp : name ≠ Path.up := by
    rintro rfl
    exact level (mem_of_mem _ (by simp))
  simp [removeFolder, found, inside, proper, notUp]

end Removing

/-! Writing a file. -/

section Writing

variable {disk : Disk} {cwd : List CodeText} {dir name : CodeText} {content : ByteArray}

/-- A name for a file that a build writes. -/
structure OutputName (name : CodeText) : Prop where
  noSlash : Path.slash ∉ name
  notEmpty : name ≠ []
  notHere : name ≠ Path.here
  notUp : name ≠ Path.up

/-- A file can be written under a name in a folder. -/
structure Takes (disk : Disk) (cwd : List CodeText) (dir name : CodeText) : Prop where
  good : pathFault? (Path.child dir name) = none
  leads : disk.Leads (Path.origin cwd dir) (Path.names dir)
  folder : disk.get? (Path.absolute cwd dir) = some .folder
  short : nameTooLong name = false
  free : disk.get? (Path.absolute cwd dir ++ [name]) ≠ some .folder

theorem parent_child_iff (isName : OutputName name) {folder : List CodeText} {last : CodeText} :
    disk.parent cwd (Path.child dir name) = .ok (folder, some last) ↔
      pathFault? (Path.child dir name) = none ∧
      disk.Leads (Path.origin cwd dir) (Path.names dir) ∧
      disk.get? (Path.absolute cwd dir) = some .folder ∧ nameTooLong name = false ∧
      folder = Path.absolute cwd dir ∧ last = name := by
  obtain ⟨above, names, dirNames⟩ := Path.names_child isName.noSlash dir
  have trimmed := Path.trimmed_of_names names isName.notEmpty
  have place : Path.absolute cwd dir = above.foldl Path.follow (Path.origin cwd dir) := by
    rw [Path.absolute_eq]
    rcases dirNames with same | same
    · rw [same]
    · rw [same, List.foldl_concat]
      rfl
  have way : disk.Leads (Path.origin cwd dir) (Path.names dir) ∧
      disk.get? (Path.absolute cwd dir) = some .folder ↔
      disk.Leads (Path.origin cwd dir) above ∧
        disk.get? (Path.absolute cwd dir) = some .folder := by
    rcases dirNames with same | same
    · rw [same]
    · have short : nameTooLong [] = false := by decide
      rw [same, leads_concat_iff, ← place]
      simp [short]
  rw [parent_eq_ok_some_iff, Path.origin_child isName.noSlash, trimmed,
    ← and_assoc (a := disk.Leads _ _), way]
  constructor
  · rintro ⟨good, other, split, leads, rfl⟩
    obtain ⟨rfl, last⟩ := List.append_inj' split rfl
    cases last
    obtain ⟨leads, folder, short⟩ := leads_concat_iff.mp leads
    rw [← place] at folder ⊢
    exact ⟨good, ⟨leads, folder⟩, short, rfl, rfl⟩
  · rintro ⟨good, ⟨leads, folder⟩, short, rfl, rfl⟩
    rw [place] at folder
    exact ⟨good, above, rfl, leads_concat_iff.mpr ⟨leads, folder, short⟩, place⟩

theorem write_of_takes (isName : OutputName name) (h : disk.Takes cwd dir name) :
    disk.write cwd (Path.child dir name) content =
      ⟨disk.put (Path.absolute cwd dir ++ [name]) (.file content), none⟩ := by
  have found := (parent_child_iff isName).mpr ⟨h.good, h.leads, h.folder, h.short, rfl, rfl⟩
  rw [write, found]
  simp only
  split
  · rename_i taken
    exact absurd taken h.free
  · rfl

theorem write_cases (isName : OutputName name) (disk : Disk) (cwd : List CodeText) (dir : CodeText)
    (content : ByteArray) :
    (∃ fault, disk.write cwd (Path.child dir name) content = ⟨disk, some fault⟩) ∨
    disk.Takes cwd dir name := by
  rw [write]
  split
  · exact Or.inl ⟨_, rfl⟩
  · exact Or.inl ⟨_, rfl⟩
  · rename_i folder last found
    obtain ⟨good, leads, inside, short, rfl, rfl⟩ := (parent_child_iff isName).mp found
    split
    · exact Or.inl ⟨_, rfl⟩
    · rename_i free
      exact Or.inr ⟨good, leads, inside, short, fun taken => free taken⟩

end Writing

end XoLang.Disk
