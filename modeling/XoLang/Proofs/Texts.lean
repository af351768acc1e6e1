import Mathlib.Tactic.Common
import XoLang.Settings

/-!
# Values without a text

Loading settings turns values into texts. All values have one but whole numbers with too many digits
and what holds such a number. So settings can be made of entries exactly when the values that become
texts have one, and there is one fault in which it fails.
-/

namespace XoLang

/-! Steps that may fail. -/

section Steps

variable {α β : Type} {fault : ValueFault}

theorem bind_eq_ok_iff {step : Except ValueFault α} {next : α → Except ValueFault β} {b : β} :
    step >>= next = .ok b ↔ ∃ a, step = .ok a ∧ next a = .ok b := by
  cases step <;> simp [bind, Except.bind]

theorem bind_eq_error_iff {step : Except ValueFault α} {next : α → Except ValueFault β} :
    step >>= next = .error fault ↔
      step = .error fault ∨ ∃ a, step = .ok a ∧ next a = .error fault := by
  cases step <;> simp [bind, Except.bind]

theorem mapM_eq_error {f : α → Except ValueFault β} {xs : List α}
    (failed : xs.mapM f = .error fault) : ∃ x ∈ xs, f x = .error fault := by
  induction xs with
  | nil => cases failed
  | cons x xs ih =>
    rw [List.mapM_cons] at failed
    rcases bind_eq_error_iff.mp failed with first | ⟨y, -, failed⟩
    · exact ⟨x, by simp, first⟩
    · rcases bind_eq_error_iff.mp failed with rest | ⟨ys, -, failed⟩
      · obtain ⟨z, mem, failed⟩ := ih rest
        exact ⟨z, by simp [mem], failed⟩
      · cases failed

theorem mapM_isOk_iff {f : α → Except ValueFault β} {xs : List α} :
    (∃ ys, xs.mapM f = .ok ys) ↔ ∀ x ∈ xs, ∃ y, f x = .ok y := by
  induction xs with
  | nil => simp [pure, Except.pure]
  | cons x xs ih =>
    rw [List.forall_mem_cons, ← ih, List.mapM_cons]
    cases f x with
    | error fault => simp [bind, Except.bind]
    | ok y => cases xs.mapM f <;> simp [bind, Except.bind, pure, Except.pure]

end Steps

/-- What has no shown form holds a part that has none. -/
theorem Collection.shownWith_eq_error {shown : Datum → Except ValueFault String} {c : Collection}
    {fault : ValueFault} (failed : c.shownWith shown = .error fault) :
    ∃ part, shown part = .error fault := by
  -- parts that are shown are joined without a fault
  have joined : ∀ {α : Type} {parts : Except ValueFault α} {join : α → String},
      (do return join (← parts)) = Except.error fault → parts = .error fault := by
    intro α parts join failed
    rcases bind_eq_error_iff.mp failed with failed | ⟨_, -, failed⟩
    · exact failed
    · cases failed
  have both : ∀ {v w : Datum} {join : String → String → String},
      (do let a ← shown v; return join a (← shown w)) = Except.error fault →
        ∃ part, shown part = .error fault := by
    intro v w join failed
    rcases bind_eq_error_iff.mp failed with failed | ⟨_, -, failed⟩
    · exact ⟨v, failed⟩
    · exact ⟨w, joined failed⟩
  cases c with
  | list items =>
    obtain ⟨part, -, failed⟩ := mapM_eq_error (joined failed)
    exact ⟨part, failed⟩
  | map entries =>
    obtain ⟨entry, -, failed⟩ := mapM_eq_error (joined failed)
    exact both failed
  | set members =>
    cases members with
    | nil => cases failed
    | cons member members =>
      obtain ⟨part, -, failed⟩ := mapM_eq_error (joined failed)
      exact ⟨part, failed⟩
  | pair first second => exact both failed

namespace Document

variable {document : Document} {fault : ValueFault}

theorem fault_of_shownInside {fuel : Nat} {path : List Nat} {v : Datum}
    (failed : document.shownInside fuel path v = .error fault) : fault = .tooLongToShow := by
  induction fuel generalizing path v with
  | zero => cases failed
  | succ fuel ih =>
    cases v with
    | int value =>
      simp only [shownInside, integerText] at failed
      split_ifs at failed
      cases failed
      rfl
    | collection index =>
      simp only [shownInside] at failed
      split at failed
      · cases failed
      · split_ifs at failed
        obtain ⟨part, failed⟩ := Collection.shownWith_eq_error failed
        exact ih failed
    | _ => cases failed

/-- Only whole numbers with too many digits have no text. -/
theorem fault_of_text {v : Datum} (failed : document.text v = .error fault) :
    fault = .tooLongToShow := by
  rw [text.eq_def] at failed
  split at failed
  · cases failed
  · cases failed
  · cases failed
  · cases shown : document.shown v with
    | error other =>
      rw [shown] at failed
      cases failed
      exact fault_of_shownInside shown
    | ok value =>
      rw [shown] at failed
      cases failed

end Document

/-! Settings from entries. -/

namespace Settings

variable {document : Document} {entries : List (Datum × Datum)} {s : Settings} {fault : ValueFault}

/-- Entries in which every value that is to become a text has one. -/
structure HasTexts (document : Document) (entries : List (Datum × Datum)) : Prop where
  texts : ∀ name ∈ ["quote", "build_dir", "output_format"], ∀ value,
    Datum.entry? name entries = some value → ∃ text, document.text value = .ok text
  words : ∀ value items, Datum.entry? "formatter" entries = some value →
    document.collection? value = some (.list items) →
    ∀ item ∈ items, ∃ text, document.text item = .ok text

/-- The words of the formatter that are set, if any are. -/
def wordsEntry (document : Document) (entries : List (Datum × Datum)) :
    Except ValueFault (Option (List CodeText)) :=
  (Datum.entry? "formatter" entries).elim (.ok none) (formatterWords document)

/-- Settings are what their entries stand for, one by one. -/
theorem ofEntries_eq_ok_iff : ofEntries document entries = .ok s ↔
    textEntry document entries "quote" default.quote = .ok s.quote ∧
    textEntry document entries "build_dir" default.buildDir = .ok s.buildDir ∧
    (∃ words, wordsEntry document entries = .ok words ∧
      s.formatter = words.getD default.formatter) ∧
    (∃ text, textEntry document entries "output_format" default.outputFormat = .ok text ∧
      s.outputFormat = text.text) ∧
    s.format = ((Datum.entry? "format" entries).map document.truth).getD default.format := by
  rw [ofEntries, ← wordsEntry]
  simp only [bind_eq_ok_iff]
  constructor
  · rintro ⟨_, quote, _, dir, words, command, text, form, ⟨⟩⟩
    exact ⟨quote, dir, ⟨words, command, rfl⟩, ⟨text, form, rfl⟩, rfl⟩
  · rintro ⟨quote, dir, ⟨words, command, formatter⟩, ⟨text, form, outputFormat⟩, format⟩
    refine ⟨_, quote, _, dir, words, command, text, form, ?_⟩
    rw [← formatter, ← outputFormat, ← format]
    rfl

theorem ofEntries_eq_error (failed : ofEntries document entries = .error fault) :
    (∃ name fallback, textEntry document entries name fallback = .error fault) ∨
      wordsEntry document entries = .error fault := by
  rw [ofEntries, ← wordsEntry] at failed
  rcases bind_eq_error_iff.mp failed with quote | ⟨_, -, failed⟩
  · exact Or.inl ⟨_, _, quote⟩
  rcases bind_eq_error_iff.mp failed with dir | ⟨_, -, failed⟩
  · exact Or.inl ⟨_, _, dir⟩
  rcases bind_eq_error_iff.mp failed with command | ⟨_, -, failed⟩
  · exact Or.inr command
  rcases bind_eq_error_iff.mp failed with form | ⟨_, -, failed⟩
  · exact Or.inl ⟨_, _, form⟩
  · cases failed

theorem textEntry_isOk_iff {name : String} {fallback : CodeText} :
    (∃ text, textEntry document entries name fallback = .ok text) ↔
      ∀ value, Datum.entry? name entries = some value → ∃ text, document.text value = .ok text := by
  rw [textEntry]
  cases Datum.entry? name entries with
  | none => simp
  | some value => simp

theorem formatterWords_isOk_iff {value : Datum} :
    (∃ words, formatterWords document value = .ok words) ↔
      ∀ items, document.collection? value = some (.list items) →
        ∀ item ∈ items, ∃ text, document.text item = .ok text := by
  rw [formatterWords.eq_def]
  split
  · simp [Document.collection?]
  · rename_i items _ found
    simp only [found, Option.some.injEq, Collection.list.injEq, forall_eq']
    rw [← mapM_isOk_iff]
    cases items.mapM document.text <;> simp [Except.map]
  · rename_i other
    simp only [Except.ok.injEq, exists_eq', true_iff]
    intro items found
    exact absurd found (other items)

theorem wordsEntry_isOk_iff : (∃ words, wordsEntry document entries = .ok words) ↔
    ∀ value items, Datum.entry? "formatter" entries = some value →
      document.collection? value = some (.list items) →
      ∀ item ∈ items, ∃ text, document.text item = .ok text := by
  rw [wordsEntry]
  cases Datum.entry? "formatter" entries with
  | none => simp
  | some value =>
    rw [Option.elim_some, formatterWords_isOk_iff]
    constructor
    · rintro each _ items ⟨⟩
      exact each items
    · exact fun each items => each value items rfl

/-- Settings are made of entries exactly when the values that become texts have texts. -/
theorem ofEntries_isOk_iff :
    (∃ s, ofEntries document entries = .ok s) ↔ HasTexts document entries := by
  constructor
  · rintro ⟨s, made⟩
    obtain ⟨quote, buildDir, ⟨words, formatter, -⟩, ⟨text, outputFormat, -⟩, -⟩ :=
      ofEntries_eq_ok_iff.mp made
    refine ⟨?_, wordsEntry_isOk_iff.mp ⟨words, formatter⟩⟩
    simp only [List.forall_mem_cons, List.not_mem_nil, false_imp_iff, implies_true, and_true]
    exact ⟨textEntry_isOk_iff.mp ⟨_, quote⟩, textEntry_isOk_iff.mp ⟨_, buildDir⟩,
      textEntry_isOk_iff.mp ⟨_, outputFormat⟩⟩
  · rintro ⟨texts, words⟩
    obtain ⟨quote, quoteText⟩ :
        ∃ text, textEntry document entries "quote" default.quote = .ok text :=
      textEntry_isOk_iff.mpr (texts "quote" (by simp))
    obtain ⟨buildDir, dirText⟩ :
        ∃ text, textEntry document entries "build_dir" default.buildDir = .ok text :=
      textEntry_isOk_iff.mpr (texts "build_dir" (by simp))
    obtain ⟨form, formText⟩ :
        ∃ text, textEntry document entries "output_format" default.outputFormat = .ok text :=
      textEntry_isOk_iff.mpr (texts "output_format" (by simp))
    obtain ⟨command, commandWords⟩ := wordsEntry_isOk_iff.mpr words
    exact ⟨⟨quote, buildDir, _, _, _⟩,
      ofEntries_eq_ok_iff.mpr
        ⟨quoteText, dirText, ⟨command, commandWords, rfl⟩, ⟨form, formText, rfl⟩, rfl⟩⟩

/-- Entries of which no settings can be made hold a number with too many digits. -/
theorem fault_of_ofEntries (failed : ofEntries document entries = .error fault) :
    fault = .tooLongToShow := by
  rcases ofEntries_eq_error failed with ⟨name, fallback, failed⟩ | failed
  · rw [textEntry] at failed
    split at failed
    · exact Document.fault_of_text failed
    · cases failed
  · rw [wordsEntry] at failed
    cases value : Datum.entry? "formatter" entries with
    | none =>
      rw [value] at failed
      cases failed
    | some value =>
      rw [value, Option.elim_some, formatterWords.eq_def] at failed
      split at failed
      · cases failed
      · rename_i items _ _
        cases texts : items.mapM document.text with
        | error other =>
          rw [texts] at failed
          cases failed
          obtain ⟨item, -, failed⟩ := mapM_eq_error texts
          exact Document.fault_of_text failed
        | ok words =>
          rw [texts] at failed
          cases failed
      · cases failed

end Settings

end XoLang
