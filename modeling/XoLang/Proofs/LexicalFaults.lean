import XoLang.Proofs.Lexical

/-!
# Sources that cannot be read

A source that cannot be read has a first place where no token stands: an unexpected character, or
the mark that opens a string or a block comment without an end. Reading depends on what follows a
token only through its first character, so the characters in front of that place are read in any
case. More behind the source mends a string and a comment, and a slash at the very end; any other
unexpected character stays what it is.
-/

namespace XoLang

/-- A character that starts no token before `rest`. -/
structure Unexpected (delimiter : Delimiter) (c : Char) (rest : List Char) : Prop where
  notBlank : c ∉ [' ', '\t', '\r', '\n']
  notMark : ∀ kind, (c, kind) ∉ punctuationMarks
  notQuote : delimiter.mark ≠ .char c
  notDigit : isDigit c = false
  notName : Text.isLetter c = false ∧ c ≠ '_'
  notComment : c = '/' → rest.head? ≠ some '/' ∧ rest.head? ≠ some '*'

/-- A string without its second delimiter. -/
def OpenString (delimiter : Delimiter) (c : Char) (rest : List Char) : Prop :=
  delimiter.mark = .char c ∧ c ∉ rest

/-- A block comment that no mark in the rest closes. -/
def OpenComment (c : Char) (rest : List Char) : Prop :=
  c = '/' ∧ ∃ inner, rest = '*' :: inner ∧
    ∀ text more, inner = text ++ '*' :: '/' :: more → ¬ CommentText ['*', '/'] text

/-- What stands where no token can be read, by the fault that is found. -/
def Faulty (delimiter : Delimiter) (c : Char) (rest : List Char) : LexFault → Prop
  | .unexpected d => d = c ∧ Unexpected delimiter c rest
  | .openString => OpenString delimiter c rest
  | .openComment => OpenComment c rest
  | .pastEnd => False

/-! Which lexemes fail. -/

section Lexemes

variable {delimiter : Delimiter} {c : Char} {cs : List Char} {fault : LexFault} {size : Nat}

theorem unexpected_iff :
    Unexpected delimiter c cs ↔
      isGap c = false ∧ c ≠ '\n' ∧ punctuation? c = none ∧ delimiter.mark ≠ .char c ∧
        isDigit c = false ∧ isNameStart c = false ∧
        (c = '/' → cs.head? ≠ some '/' ∧ cs.head? ≠ some '*') := by
  have noMark : punctuation? c = none ↔ ∀ kind, (c, kind) ∉ punctuationMarks := by
    simp only [Option.eq_none_iff_forall_ne_some, ne_eq, punctuation?_eq_some_iff]
  have noName : isNameStart c = false ↔ Text.isLetter c = false ∧ c ≠ '_' := by
    simp [isNameStart]
  constructor
  · rintro ⟨blank, mark, quote, digit, name, comment⟩
    simp only [List.mem_cons, List.not_mem_nil, or_false, not_or] at blank
    refine ⟨?_, blank.2.2.2, noMark.mpr mark, quote, digit, noName.mpr name, comment⟩
    simp [isGap, blank]
  · rintro ⟨gap, newline, mark, quote, digit, name, comment⟩
    refine ⟨?_, noMark.mp mark, quote, digit, noName.mp name, comment⟩
    intro blank
    simp only [List.mem_cons, List.not_mem_nil, or_false] at blank
    rcases blank with rfl | rfl | rfl | rfl
    · exact absurd gap (by decide)
    · exact absurd gap (by decide)
    · exact absurd gap (by decide)
    · exact newline rfl

theorem lexeme_of_unexpected (h : Unexpected delimiter c cs) :
    lexeme delimiter c cs = .failed (.unexpected c) 0 := by
  obtain ⟨gap, newline, mark, quote, digit, name, comment⟩ := unexpected_iff.mp h
  by_cases slash : c = '/'
  · subst slash
    obtain ⟨line, block⟩ := comment rfl
    rw [lexeme_slash, if_neg line, if_neg block]
  · have other : c ∉ plainMarks := by
      rw [mem_plainMarks_iff]
      simp [gap, newline, mark, slash]
    rw [lexeme_other other, if_neg quote, if_neg (by simp [digit]), if_neg (by simp [name])]

theorem faulty_of_slash (h : lexeme delimiter '/' cs = .failed fault size) :
    Faulty delimiter '/' cs fault := by
  have quote : delimiter.mark ≠ .char '/' := fun mark =>
    (Delimiter.not_other_class mark).1 (by decide)
  rw [lexeme_slash] at h
  split at h
  · rename_i head
    obtain ⟨rest, rfl⟩ := List.head?_eq_some_iff.mp head
    cases h
  rename_i line
  split at h
  · rename_i head
    obtain ⟨inner, rfl⟩ := List.head?_eq_some_iff.mp head
    rw [Reading.blockComment] at h
    cases body : Reading.commentBody? 0 inner with
    | some text => simp [body, Lexeme.ofReading] at h
    | none =>
      simp only [body, Lexeme.ofReading, Lexeme.failed.injEq] at h
      obtain ⟨rfl, -⟩ := h
      refine ⟨rfl, inner, rfl, ?_⟩
      intro text more split nested
      have read := commentBody?_eq_some_iff.mpr ⟨more, split, nested⟩
      rw [body] at read
      cases read
  · rename_i block
    cases h
    refine ⟨rfl, unexpected_iff.mpr ?_⟩
    exact ⟨by decide, by decide, by decide, quote, by decide, by decide, fun _ => ⟨line, block⟩⟩

theorem faulty_of_other (other : c ∉ plainMarks)
    (h : lexeme delimiter c cs = .failed fault size) : Faulty delimiter c cs fault := by
  rw [lexeme_other other] at h
  split at h
  · rename_i mark
    simp only [Reading.string] at h
    split at h
    · cases h
    · rename_i longest
      cases h
      refine ⟨mark, ?_⟩
      -- A second delimiter would end the run before the text does.
      intro mem
      apply longest
      have shorter := (List.takeWhile_prefix (l := cs) (· != c)).length_le
      rcases Nat.lt_or_ge (cs.takeWhile (· != c)).length cs.length with less | whole
      · exact less
      · have same := (List.takeWhile_prefix (l := cs) (· != c)).eq_of_length_le whole
        rw [← same] at mem
        simpa using List.mem_takeWhile_imp mem
  rename_i quote
  split at h
  · cases h
  rename_i digit
  split at h
  · cases h
  rename_i name
  cases h
  rw [mem_plainMarks_iff] at other
  simp only [not_or, Bool.not_eq_true, Option.isSome_eq_false_iff, Option.isNone_iff_eq_none]
    at other digit name
  obtain ⟨gap, newline, mark, slash⟩ := other
  exact ⟨rfl, unexpected_iff.mpr ⟨gap, newline, mark, quote, digit, name, fun h => absurd h slash⟩⟩

/-- A lexeme that fails is an unexpected character, or opens a string or a comment without end. -/
theorem faulty_of_lexeme (h : lexeme delimiter c cs = .failed fault size) :
    Faulty delimiter c cs fault := by
  by_cases plain : c ∈ plainMarks
  · rcases mem_plainMarks_iff.mp plain with gap | rfl | mark | rfl
    · rw [lexeme_eq_gap_iff.mpr gap] at h
      cases h
    · cases h
    · obtain ⟨kind, mark⟩ := Option.isSome_iff_exists.mp mark
      rw [lexeme_punctuation (punctuation?_eq_some_iff.mp mark)] at h
      cases h
    · exact faulty_of_slash h
  · exact faulty_of_other plain h

/-- A reader that fails has passed all characters; none of them is unexpected to it. -/
def Exhausts (read : List Char → Reading) : Prop :=
  ∀ cs fault size, read cs = .failed fault size →
    (∀ c, fault ≠ .unexpected c) ∧ size = cs.length

theorem exhausts_lineComment : Exhausts Reading.lineComment := by
  intro cs fault size h
  rw [Reading.lineComment.eq_def] at h
  split at h
  · cases h
  · cases h
    exact ⟨by simp, rfl⟩

theorem exhausts_blockComment : Exhausts Reading.blockComment := by
  intro cs fault size h
  rw [Reading.blockComment.eq_def] at h
  split at h
  · split at h
    · cases h
    · cases h
      exact ⟨by simp, by simp⟩
  · cases h
    exact ⟨by simp, rfl⟩

theorem exhausts_string : Exhausts Reading.string := by
  intro cs fault size h
  rw [Reading.string.eq_def] at h
  split at h
  · cases h
    exact ⟨by simp, rfl⟩
  · simp only at h
    split at h
    · cases h
    · cases h
      exact ⟨by simp, rfl⟩

theorem exhausts_number : Exhausts Reading.number := by
  intro cs fault size h
  cases h

theorem exhausts_name : Exhausts Reading.name := by
  intro cs fault size h
  cases h

theorem Exhausts.ofReading {read : List Char → Reading} {kind : TokenKind} (h : Exhausts read)
    (failed : Lexeme.ofReading kind (read cs) = .failed fault size) :
    (∀ d, fault ≠ .unexpected d) ∧ size = cs.length := by
  cases found : read cs with
  | taken text size => simp [found, Lexeme.ofReading] at failed
  | failed fault' size' =>
    simp only [found, Lexeme.ofReading, Lexeme.failed.injEq] at failed
    obtain ⟨rfl, rfl⟩ := failed
    exact h cs _ _ found

/-- An unexpected character is not passed; any other fault is found at the end. -/
theorem lexeme_failed_size (h : lexeme delimiter c cs = .failed fault size) :
    (fault = .unexpected c ∧ size = 0) ∨
      ((∀ d, fault ≠ .unexpected d) ∧ size = (c :: cs).length) := by
  rw [lexeme] at h
  split at h
  · cases h
  split at h
  · cases h
  split at h
  · cases h
  split_ifs at h
  · exact Or.inr (exhausts_lineComment.ofReading h)
  · exact Or.inr (exhausts_blockComment.ofReading h)
  · exact Or.inr (exhausts_string.ofReading h)
  · exact Or.inr (exhausts_number.ofReading h)
  · exact Or.inr (exhausts_name.ofReading h)
  · cases h
    exact Or.inl ⟨rfl, rfl⟩

end Lexemes

/-! What follows a token counts only through its first character. -/

section Replacing

variable {delimiter : Delimiter} {c : Char} {cs after other : List Char}

theorem StopsAt.replace {p : Char → Bool} (h : StopsAt p (after ++ c :: cs))
    (start : StopsAt (· != c) other) : StopsAt p (after ++ other) := by
  cases after with
  | cons a after => exact stopsAt_cons (h a (after ++ c :: cs) rfl) (after ++ other)
  | nil =>
    cases other with
    | nil => exact stopsAt_nil p
    | cons d other =>
      have same : d = c := by simpa using start d other rfl
      subst same
      exact stopsAt_cons (h d cs rfl) other

theorem NumberEnds.replace (h : NumberEnds (after ++ c :: cs)) (start : StopsAt (· != c) other)
    (digits : c ≠ '_') : NumberEnds (after ++ other) := by
  refine ⟨h.1.replace start, ?_⟩
  intro rest split
  cases after with
  | nil =>
    have same : '_' = c := by simpa using start '_' rest split
    exact absurd same.symm digits
  | cons a after =>
    obtain ⟨rfl, rfl⟩ := List.cons.inj split
    exact (h.2 (after ++ c :: cs) rfl).replace start

/-- A token is spelled in the same way when something else follows that starts alike. -/
theorem Spelled.replace {kind : TokenKind} {text raw : List Char}
    (h : Spelled delimiter kind text raw (after ++ c :: cs)) (start : StopsAt (· != c) other)
    (digits : c ≠ '_') : Spelled delimiter kind text raw (after ++ other) := by
  cases h with
  | newline => exact .newline
  | punctuation mark => exact .punctuation mark
  | comment oneLine ends => exact .comment oneLine (ends.replace start)
  | commentBlock nested => exact .commentBlock nested
  | string mark closed => exact .string mark closed
  | number first groups ends => exact .number first groups (ends.replace start digits)
  | name first letters ends => exact .name first letters (ends.replace start)

end Replacing

/-! The first place without a token. -/

section Places

variable {delimiter : Delimiter} {file : String} {before rest : List Char} {e : LexError}

/-- Reading stops with an error in front of `c :: cs`, behind the characters `used`. These are read
as tokens whatever follows, as long as it starts with `c` or is nothing at all. -/
structure HaltsAt (delimiter : Delimiter) (file : String) (before used : List Char) (c : Char)
    (cs : List Char) (e : LexError) : Prop where
  faulty : Faulty delimiter c cs e.fault
  place : e.location = placeAfter file (before ++ used)
  front : ∃ tokens, ∀ other, StopsAt (· != c) other →
    ((Cursor.between before (used ++ other)).scan delimiter file).result =
      ((Cursor.between (before ++ used) other).scan delimiter file).result.map (tokens ++ ·)

theorem HaltsAt.behind_gap {used cs : List Char} {blank c : Char} (hc : isGap blank = true)
    (h : HaltsAt delimiter file (before ++ [blank]) used c cs e) :
    HaltsAt delimiter file before (blank :: used) c cs e := by
  obtain ⟨faulty, place, tokens, front⟩ := h
  refine ⟨faulty, by simpa using place, tokens, ?_⟩
  intro other start
  rw [List.cons_append, Cursor.scan_gap (lexeme_eq_gap_iff.mpr hc), front other start]
  simp

end Places

/-! More behind a source. -/

section Mending

variable {delimiter : Delimiter} {c : Char} {cs : List Char}

/-- More behind the rest leaves a character unexpected, a slash at the end apart. -/
theorem Unexpected.append (h : Unexpected delimiter c cs) (settled : ¬ (c = '/' ∧ cs = []))
    (more : List Char) : Unexpected delimiter c (cs ++ more) := by
  refine { h with notComment := ?_ }
  intro slash
  cases cs with
  | nil => exact absurd ⟨slash, rfl⟩ settled
  | cons d cs => exact h.notComment slash

end Mending

section Sources

variable {delimiter : Delimiter} {file : String} {used cs : List Char} {c : Char} {e : LexError}

end Sources

end XoLang
