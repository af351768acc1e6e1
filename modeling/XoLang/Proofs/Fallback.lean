import XoLang.Proofs.Searching

/-!
# Settings that fall back

A settings file that is missing or that holds no settings gives the default settings and one
warning. Loading is stopped by a path with a null character or a code point without bytes, by a file
that is no UTF-8 and by values that have no text; nothing is told about the file then. These are all
the ways in which loading can end without settings, and all the ways in which it warns. Nothing is
assumed of what reads the two formats.
-/

namespace XoLang.Settings

/-- The path of the file that settings are taken from: the one that is named, or else the nearest
one. -/
def selected? (disk : Disk) (cwd : List CodeText) (path : Option CodeText) (folder : CodeText) :
    Option CodeText :=
  match path with
  | some path => some path
  | none => find? disk cwd folder

/-- A file that a path leads to, with its text. -/
def HoldsText (disk : Disk) (cwd : List CodeText) (path : CodeText) (text : String) : Prop :=
  ∃ content, disk.read cwd path = .ok content ∧ fileText? content = some text

/-- Every code point of a path has bytes. -/
def HasBytes (path : CodeText) : Prop := ∀ point ∈ path, (Path.pointSize? point).isSome = true

instance (path : CodeText) : Decidable (HasBytes path) :=
  inferInstanceAs (Decidable (∀ _ ∈ _, _))

/-- A path to a file that sets nothing: it cannot be opened, its text breaks the rules of its
format, or what it holds is neither nothing nor a mapping. -/
inductive Unusable (reader : Reader) (disk : Disk) (cwd : List CodeText) (path : CodeText) : Prop
  | unopened (bytes : HasBytes path) (named : .char (Char.ofNat 0) ∉ path)
      (noFile : disk.isFile cwd path = false)
  | malformed {text reason : String} (holds : HoldsText disk cwd path text)
      (broken : reader.read path text = .error (.malformed reason))
  | noMapping {text : String} {document : Document} (holds : HoldsText disk cwd path text)
      (read : reader.read path text = .ok document) (something : document.root ≠ .null)
      (other : ∀ entries, document.collection? document.root ≠ some (.map entries))

/-- A path to a file that stops loading. -/
inductive Stops (reader : Reader) (disk : Disk) (cwd : List CodeText) (path : CodeText) :
    LoadFault → Prop
  | noBytes (odd : ¬ HasBytes path) : Stops reader disk cwd path .noBytes
  | nullCharacter (bytes : HasBytes path) (null : .char (Char.ofNat 0) ∈ path) :
      Stops reader disk cwd path .nullCharacter
  | notText {content : ByteArray} (read : disk.read cwd path = .ok content)
      (undecodable : ¬ content.IsValidUTF8) : Stops reader disk cwd path .notText
  | noValue {text : String} {fault : ValueFault} (holds : HoldsText disk cwd path text)
      (broken : reader.read path text = .error (.value fault)) :
      Stops reader disk cwd path (.value fault)
  | noText {text : String} {document : Document} {entries : List (Datum × Datum)}
      {fault : ValueFault} (holds : HoldsText disk cwd path text)
      (read : reader.read path text = .ok document)
      (mapping : document.entries? = some entries)
      (unshown : ofEntries document entries = .error fault) :
      Stops reader disk cwd path (.value fault)

section Files

variable {reader : Reader} {disk : Disk} {cwd : List CodeText} {path : CodeText} {text : String}
variable {fault : LoadFault}

theorem fileText?_eq_none_iff {content : ByteArray} :
    fileText? content = none ↔ ¬ content.IsValidUTF8 := by
  rw [fileText?, Option.map_eq_none_iff, String.fromUTF8?]
  split
  · rename_i valid
    simp only [reduceCtorEq, false_iff, not_not]
    exact valid
  · rename_i invalid
    simp only [true_iff]
    exact invalid

theorem entries?_eq_none_iff {document : Document} :
    document.entries? = none ↔ document.root ≠ .null ∧
      ∀ entries, document.collection? document.root ≠ some (.map entries) := by
  rw [Document.entries?]
  split
  · rename_i nothing
    simp [nothing]
  · rename_i entries found _
    simp [found]
  · rename_i something other
    simp only [true_iff]
    exact ⟨something, other⟩

theorem ofFile_of_holds (holds : HoldsText disk cwd path text) :
    ofFile reader disk cwd path = ofText reader path text := by
  obtain ⟨content, read, decoded⟩ := holds
  rw [ofFile, read]
  simp only [decoded]

theorem any_noBytes_iff :
    (path.any fun point => (Path.pointSize? point).isNone) = true ↔ ¬ HasBytes path := by
  simp [HasBytes, Option.isSome_iff_ne_none]

theorem pathFault?_noBytes_iff :
    Disk.pathFault? path = some .noBytes ↔ ¬ HasBytes path := by
  rw [Disk.pathFault?]
  simp only [any_noBytes_iff]
  by_cases bytes : HasBytes path
  · rw [if_neg (not_not.mpr bytes)]
    simp only [bytes, not_true, iff_false]
    split_ifs <;> simp
  · simp [bytes]

theorem pathFault?_null_iff : Disk.pathFault? path = some .nullCharacter ↔
    HasBytes path ∧ .char (Char.ofNat 0) ∈ path := by
  rw [Disk.pathFault?]
  simp only [any_noBytes_iff, List.contains_iff_mem]
  by_cases bytes : HasBytes path
  · rw [if_neg (not_not.mpr bytes)]
    by_cases null : .char (Char.ofNat 0) ∈ path
    · simp [bytes, null]
    · rw [if_neg null]
      simp only [null, and_false, iff_false]
      split_ifs <;> simp
  · simp [bytes]

/-- The faults that stop loading are those of the characters of a path. -/
theorem read_noBytes_iff : disk.read cwd path = .error .noBytes ↔ ¬ HasBytes path :=
  (Disk.read_ofCharacters_iff (Or.inr rfl)).trans pathFault?_noBytes_iff

theorem read_null_iff : disk.read cwd path = .error .nullCharacter ↔
    HasBytes path ∧ .char (Char.ofNat 0) ∈ path :=
  (Disk.read_ofCharacters_iff (Or.inl rfl)).trans pathFault?_null_iff

/-- A file that sets nothing gives the default settings and a warning. -/
theorem ofFile_of_unusable (h : Unusable reader disk cwd path) :
    ∃ message, ofFile reader disk cwd path = .fallback message := by
  cases h with
  | unopened bytes named noFile =>
    cases read : disk.read cwd path with
    | ok content =>
      have isFile := Disk.isFile_iff.mpr ⟨content, read⟩
      rw [noFile] at isFile
      cases isFile
    | error fault =>
      rw [ofFile, read]
      cases fault with
      | nullCharacter => exact absurd (read_null_iff.mp read).2 named
      | noBytes => exact absurd bytes (read_noBytes_iff.mp read)
      | _ => exact ⟨_, rfl⟩
  | malformed holds broken =>
    rw [ofFile_of_holds holds, ofText, broken]
    exact ⟨_, rfl⟩
  | noMapping holds read something other =>
    rw [ofFile_of_holds holds, ofText, read]
    simp only [entries?_eq_none_iff.mpr ⟨something, other⟩]
    exact ⟨_, rfl⟩

theorem result_of_stops (h : Stops reader disk cwd path fault) :
    (ofFile reader disk cwd path).result = .error fault := by
  cases h with
  | noBytes odd => rw [ofFile, read_noBytes_iff.mpr odd]
  | nullCharacter bytes null => rw [ofFile, read_null_iff.mpr ⟨bytes, null⟩]
  | notText read undecodable =>
    rw [ofFile, read]
    simp only [fileText?_eq_none_iff.mpr undecodable]
  | noValue holds broken =>
    rw [ofFile_of_holds holds, ofText, broken]
  | noText holds read mapping unshown =>
    rw [ofFile_of_holds holds, ofText, read]
    simp only [mapping, unshown]
    rfl

/-- Every file sets nothing, stops loading or is used; only the first kind is warned about. -/
theorem ofFile_cases (reader : Reader) (disk : Disk) (cwd : List CodeText) (path : CodeText) :
    Unusable reader disk cwd path ∨
      ((∀ r ∈ (ofFile reader disk cwd path).log, r.level ≠ .warning) ∧
        ((∃ fault, Stops reader disk cwd path fault) ∨
          ∃ settings, (ofFile reader disk cwd path).result = .ok settings)) := by
  by_cases bytes : HasBytes path
  swap
  · have read : disk.read cwd path = .error .noBytes := read_noBytes_iff.mpr bytes
    exact Or.inr ⟨by simp [ofFile, read], Or.inl ⟨_, .noBytes bytes⟩⟩
  by_cases null : .char (Char.ofNat 0) ∈ path
  · have read : disk.read cwd path = .error .nullCharacter := read_null_iff.mpr ⟨bytes, null⟩
    exact Or.inr ⟨by simp [ofFile, read], Or.inl ⟨_, .nullCharacter bytes null⟩⟩
  cases read : disk.read cwd path with
  | error fault =>
    refine Or.inl (.unopened bytes null ?_)
    rw [← Bool.not_eq_true, Disk.isFile_iff, read]
    simp
  | ok content =>
    cases decoded : fileText? content with
    | none =>
      have stops : Stops reader disk cwd path .notText :=
        .notText read (fileText?_eq_none_iff.mp decoded)
      exact Or.inr ⟨by simp [ofFile, read, decoded], Or.inl ⟨_, stops⟩⟩
    | some text =>
      have holds : HoldsText disk cwd path text := ⟨content, read, decoded⟩
      cases parsed : reader.read path text with
      | error failure =>
        cases failure with
        | malformed reason => exact Or.inl (.malformed holds parsed)
        | value fault =>
          exact Or.inr ⟨by simp [ofFile_of_holds holds, ofText, parsed],
            Or.inl ⟨_, .noValue holds parsed⟩⟩
      | ok document =>
        cases mapping : document.entries? with
        | none =>
          obtain ⟨something, other⟩ := entries?_eq_none_iff.mp mapping
          exact Or.inl (.noMapping holds parsed something other)
        | some entries =>
          refine Or.inr ⟨by simp [ofFile_of_holds holds, ofText, parsed, mapping, record], ?_⟩
          cases shown : ofEntries document entries with
          | error fault => exact Or.inl ⟨_, .noText holds parsed mapping shown⟩
          | ok settings =>
            refine Or.inr ⟨settings, ?_⟩
            rw [ofFile_of_holds holds, ofText, parsed]
            simp only [mapping, shown]
            rfl

end Files

theorem load_of_selected {reader : Reader} {disk : Disk} {cwd : List CodeText}
    {path : Option CodeText} {folder file : CodeText}
    (chosen : selected? disk cwd path folder = some file) :
    load reader disk cwd path folder = ofFile reader disk cwd file := by
  cases path with
  | some path =>
    cases chosen
    rfl
  | none =>
    have found : find? disk cwd folder = some file := chosen
    rw [load, found]

/-- Without a settings file the settings are the default ones. A file that sets nothing gives these
too, and one warning, which no other file gives. Settings are missing exactly when the file stops
loading: above all when its bytes are no UTF-8. -/
theorem load_falls_back (reader : Reader) (disk : Disk) (cwd : List CodeText)
    (path : Option CodeText) (folder : CodeText) :
    (selected? disk cwd path folder = none →
      load reader disk cwd path folder = ⟨.ok default, []⟩) ∧
    ∀ file, selected? disk cwd path folder = some file →
      (Unusable reader disk cwd file →
        (load reader disk cwd path folder).result = .ok default ∧
        ∃ message, (load reader disk cwd path folder).log =
          [⟨.warning, "xo.config", message⟩]) ∧
      ((∃ r ∈ (load reader disk cwd path folder).log, r.level = .warning) →
        Unusable reader disk cwd file) ∧
      ∀ fault, (load reader disk cwd path folder).result = .error fault ↔
        Stops reader disk cwd file fault := by
  constructor
  · intro nothing
    cases path with
    | some path => cases nothing
    | none =>
      have missing : find? disk cwd folder = none := nothing
      rw [load, missing]
  intro file chosen
  rw [load_of_selected chosen]
  refine ⟨?_, ?_, ?_⟩
  · intro unusable
    obtain ⟨message, same⟩ := ofFile_of_unusable unusable
    rw [same]
    exact ⟨rfl, message, rfl⟩
  · rintro ⟨r, mem, warns⟩
    rcases ofFile_cases reader disk cwd file with unusable | ⟨silent, -⟩
    · exact unusable
    · exact absurd warns (silent r mem)
  · intro fault
    refine ⟨?_, result_of_stops⟩
    intro failed
    rcases ofFile_cases reader disk cwd file with unusable | ⟨-, ⟨other, stops⟩ | ⟨settings, used⟩⟩
    · obtain ⟨message, same⟩ := ofFile_of_unusable unusable
      rw [same] at failed
      cases failed
    · rw [result_of_stops stops] at failed
      cases failed
      exact stops
    · rw [used] at failed
      cases failed

/-- A settings file that is no UTF-8, and a folder with the name of a settings file. -/
def strayFiles : Disk :=
  ⟨[([".xorc.yml"], .file ⟨#[255]⟩), (["p"], .folder), (["p", "cfg.yml"], .folder)]⟩

theorem folder_in_place_of_settings :
    Unusable (.standard id "") strayFiles ["p"] "cfg.yml" ∧
    (load (.standard id "") strayFiles ["p"] (some "cfg.yml") ".").result = .ok default ∧
    ∃ message, (load (.standard id "") strayFiles ["p"] (some "cfg.yml") ".").log =
      [⟨.warning, "xo.config", message⟩] := by
  have unusable : Unusable (.standard id "") strayFiles ["p"] "cfg.yml" :=
    .unopened (by decide) (by decide) (by decide)
  exact ⟨unusable, ((load_falls_back (.standard id "") strayFiles ["p"] (some "cfg.yml") ".").2
    "cfg.yml" rfl).1 unusable⟩

/-- Bytes that are no UTF-8 stop loading, without the default settings and without a warning. -/
theorem undecodable_settings_stop :
    selected? strayFiles [] none "." = some "/.xorc.yml" ∧
    strayFiles.isFile [] "/.xorc.yml" = true ∧
    (load (.standard id "") strayFiles [] none ".").result = .error .notText ∧
    (load (.standard id "") strayFiles [] none ".").log = [] := by
  exact ⟨by decide, by decide, by decide, by decide⟩

end XoLang.Settings
