import Mathlib.Data.List.Induction
import XoLang.Disk

/-!
# What stands on a disk

Every operation on a disk is known by what it does to the entries at all places. A disk grows when
folders are made where nothing was. On a disk as a machine has it every entry stands in a folder and
has a name that a path can write; nothing here assumes that of a disk unless it is said.
-/

namespace XoLang.Disk

section Lookups

variable {disk : Disk} {folder place p : List CodeText} {entry : Entry}

@[simp] theorem get?_root (disk : Disk) : disk.get? [] = some .folder := rfl

theorem lookup_filter (keep : List CodeText → Bool) (entries : List (List CodeText × Entry))
    (place : List CodeText) :
    (entries.filter fun e => keep e.1).lookup place =
      if keep place = true then entries.lookup place else none := by
  induction entries with
  | nil => simp
  | cons e entries ih =>
    obtain ⟨spot, entry⟩ := e
    by_cases same : place = spot
    · subst same
      by_cases kept : keep place = true
      · simp [kept]
      · simp [kept, ih]
    · have other : (place == spot) = false := by simpa using same
      simp only [List.filter_cons, List.lookup_cons, other]
      by_cases kept : keep spot = true
      · rw [if_pos kept, List.lookup_cons, other]
        exact ih
      · rw [if_neg kept]
        exact ih

theorem get?_drop (proper : place ≠ []) :
    (disk.drop place).get? p = if p = place then none else disk.get? p := by
  rw [get?, get?, drop]
  by_cases root : p = []
  · subst root
    simp [Ne.symm proper]
  · simp only [if_neg root]
    rw [lookup_filter (fun spot => spot ≠ place)]
    by_cases same : p = place <;> simp [same]

theorem get?_put (proper : place ≠ []) :
    (disk.put place entry).get? p = if p = place then some entry else disk.get? p := by
  rw [get?, get?, put]
  by_cases root : p = []
  · subst root
    simp [Ne.symm proper]
  · simp only [if_neg root]
    rw [List.lookup_append, lookup_filter (fun spot => spot ≠ place)]
    by_cases same : p = place
    · simp [same]
    · have other : (p == place) = false := by simpa using same
      simp [same, other, List.lookup_cons]

theorem isBelow_iff : isBelow folder p = true ↔ folder <+: p ∧ p ≠ folder := by
  simp only [isBelow, Bool.and_eq_true, List.isPrefixOf_iff_prefix, decide_eq_true_eq]
  constructor
  · rintro ⟨front, longer⟩
    refine ⟨front, ?_⟩
    rintro rfl
    exact longer rfl
  · rintro ⟨front, other⟩
    refine ⟨front, ?_⟩
    intro same
    exact other (front.eq_of_length same.symm).symm

theorem get?_clear :
    (disk.clear folder).get? p = if folder <+: p ∧ p ≠ folder then none else disk.get? p := by
  rw [get?, get?, clear]
  by_cases root : p = []
  · subst root
    have outside : ¬ (folder <+: [] ∧ [] ≠ folder) := by
      rintro ⟨front, other⟩
      exact other (List.prefix_nil.mp front).symm
    rw [if_neg outside]
    rfl
  · simp only [if_neg root]
    rw [lookup_filter (fun spot => !isBelow folder spot)]
    by_cases below : folder <+: p ∧ p ≠ folder
    · simp [isBelow_iff.mpr below, below]
    · have outside : isBelow folder p = false := by
        rw [Bool.eq_false_iff]
        exact fun h => below (isBelow_iff.mp h)
      rw [outside, if_neg below]
      rfl

/-- A place that is cleared and dropped is gone with all below it. -/
theorem get?_drop_clear (proper : place ≠ []) :
    ((disk.clear place).drop place).get? p = if place <+: p then none else disk.get? p := by
  rw [get?_drop proper, get?_clear]
  by_cases same : p = place
  · rw [if_pos same, if_pos (same ▸ List.prefix_rfl)]
  · rw [if_neg same]
    by_cases inside : place <+: p
    · rw [if_pos ⟨inside, same⟩, if_pos inside]
    · rw [if_neg fun below => inside below.1, if_neg inside]

end Lookups

/-! Growing. -/

/-- The second disk is the first one with more folders, made at `fresh` places. -/
def GrownBy (fresh : List CodeText → Prop) (disk next : Disk) : Prop :=
  ∀ p, next.get? p = disk.get? p ∨
    (disk.get? p = none ∧ next.get? p = some .folder ∧ fresh p)

section Growing

variable {disk next last : Disk} {fresh : List CodeText → Prop} {place p : List CodeText}

theorem GrownBy.refl (fresh : List CodeText → Prop) (disk : Disk) : disk.GrownBy fresh disk :=
  fun _ => Or.inl rfl

theorem GrownBy.trans (first : disk.GrownBy fresh next) (second : next.GrownBy fresh last) :
    disk.GrownBy fresh last := by
  intro p
  rcases second p with same | ⟨nothing, folder, new⟩
  · rw [same]
    exact first p
  · rcases first p with same | ⟨_, taken, _⟩
    · exact Or.inr ⟨same ▸ nothing, folder, new⟩
    · rw [taken] at nothing
      cases nothing

theorem GrownBy.put (nothing : disk.get? place = none) (new : fresh place) :
    disk.GrownBy fresh (disk.put place .folder) := by
  have proper : place ≠ [] := by
    rintro rfl
    cases nothing
  intro p
  rw [get?_put proper]
  by_cases same : p = place
  · subst same
    exact Or.inr ⟨nothing, if_pos rfl, new⟩
  · exact Or.inl (if_neg same)

/-- What is there stays. -/
theorem GrownBy.get?_of_isSome (h : disk.GrownBy fresh next) (there : (disk.get? p).isSome = true) :
    next.get? p = disk.get? p := by
  rcases h p with same | ⟨nothing, -⟩
  · exact same
  · rw [nothing] at there
    cases there

/-- Nothing comes at other places. -/
theorem GrownBy.get?_of_not (h : disk.GrownBy fresh next) (old : ¬ fresh p) :
    next.get? p = disk.get? p := by
  rcases h p with same | ⟨-, -, new⟩
  · exact same
  · exact absurd new old

end Growing

/-! Disks as machines have them. -/

/-- Every entry stands in a folder. -/
def Nested (disk : Disk) : Prop :=
  ∀ folder name, (disk.get? (folder ++ [name])).isSome = true → disk.get? folder = some .folder

/-- A name that an entry can have. -/
def IsName (name : CodeText) : Prop :=
  name ≠ [] ∧ name ≠ Path.here ∧ name ≠ Path.up ∧ Path.slash ∉ name ∧ .char (Char.ofNat 0) ∉ name

instance (name : CodeText) : Decidable (IsName name) := inferInstanceAs (Decidable (_ ∧ _))

/-- Every entry stands in a folder, under a name. -/
structure IsTree (disk : Disk) : Prop where
  nested : disk.Nested
  names : ∀ place, (disk.get? place).isSome = true → ∀ name ∈ place, IsName name

section Trees

variable {disk : Disk} {folder place : List CodeText}

/-- What an entry stands in, near or far, is a folder. -/
theorem Nested.get?_above (nested : disk.Nested) (there : (disk.get? place).isSome = true)
    (above : folder <+: place) (other : folder ≠ place) : disk.get? folder = some .folder := by
  induction place using List.reverseRecOn with
  | nil => exact absurd (List.prefix_nil.mp above) other
  | append_singleton upper name ih =>
    have parent := nested upper name there
    rcases List.prefix_concat_iff.mp above with same | above
    · exact absurd same other
    · by_cases last : folder = upper
      · rw [last]
        exact parent
      · exact ih (by rw [parent]; rfl) above last

/-- It is enough to look at the entries. -/
theorem isTree_of_entries (h : ∀ e ∈ disk.entries, e.1 ≠ [] →
    disk.get? e.1.dropLast = some .folder ∧ ∀ name ∈ e.1, IsName name) : disk.IsTree := by
  have entry : ∀ place, place ≠ [] → (disk.get? place).isSome = true →
      ∃ e ∈ disk.entries, e.1 = place := by
    intro place proper there
    rw [get?, if_neg proper, List.lookup_isSome_iff] at there
    obtain ⟨e, mem, same⟩ := there
    exact ⟨e, mem, (by simpa using same : place = e.1).symm⟩
  constructor
  · intro folder name there
    obtain ⟨e, mem, same⟩ := entry (folder ++ [name]) (by simp) there
    have parent := (h e mem (by simp [same])).1
    rwa [same, List.dropLast_concat] at parent
  · intro place there
    by_cases root : place = []
    · simp [root]
    · obtain ⟨e, mem, rfl⟩ := entry place root there
      exact (h e mem root).2

end Trees

end XoLang.Disk
