import Mathlib
import XoLang.Proofs.Lexical

/-!
# Renaming characters

No rule of the lexical grammar mentions a character that may delimit strings, the star of block
comments apart. So when characters without a rule are renamed in a source and the delimiter is
renamed with them, the tokens come out renamed, and so does the fault of a source that cannot be
read. Every place stays where it was.
-/

namespace XoLang

/-- A character that some rule mentions, whatever the delimiter is. -/
def Ruled (c : Char) : Prop := c ∈ plainMarks ∨ c = '*' ∨ isNamePart c = true

/-- A renaming of characters that leaves the ruled ones alone. -/
structure Renaming (f : Char → Char) : Prop where
  injective : Function.Injective f
  fixed : ∀ c, Ruled c → f c = c

def LexFault.rename (f : Char → Char) : LexFault → LexFault
  | .unexpected c => .unexpected (f c)
  | fault => fault

def Reading.rename (f : Char → Char) : Reading → Reading
  | .taken text size => .taken (text.map f) size
  | .failed fault size => .failed (fault.rename f) size

def Lexeme.rename (f : Char → Char) : Lexeme → Lexeme
  | .gap => .gap
  | .token kind text size => .token kind (text.map f) size
  | .failed fault size => .failed (fault.rename f) size

/-- A string with its characters renamed. -/
def renamed (f : Char → Char) (text : String) : String := String.ofList (text.toList.map f)

/-- A token with its text renamed. -/
def Token.rename (f : Char → Char) (t : Token) : Token := { t with text := renamed f t.text }

/-- An error with its unexpected character renamed, if it has one. -/
def LexError.rename (f : Char → Char) (e : LexError) : LexError :=
  { e with fault := e.fault.rename f }

def renameTokens (f : Char → Char) :
    Except LexError (List Token) → Except LexError (List Token)
  | .ok tokens => .ok (tokens.map (·.rename f))
  | .error e => .error (e.rename f)

/-! Ruled characters. -/

section Ruled

variable {f : Char → Char} {c d : Char} {cs : List Char}

theorem Renaming.eq_iff (r : Renaming f) (ruled : Ruled d) : f c = d ↔ c = d := by
  constructor
  · intro same
    apply r.injective
    exact same.trans (r.fixed d ruled).symm
  · intro same
    rw [same]
    exact r.fixed d ruled

/-- What is said of ruled characters only is said of a character under both names. -/
theorem Renaming.apply_eq {α : Type} (r : Renaming f) {p : Char → α} (other : α)
    (h : ∀ c, Ruled c ∨ p c = other) (c : Char) : p (f c) = p c := by
  rcases h c with ruled | unsaid
  · rw [r.fixed c ruled]
  rcases h (f c) with ruled | unsaid'
  · have same : f c = c := r.injective (r.fixed (f c) ruled)
    rw [same]
  · exact unsaid'.trans unsaid.symm

theorem Renaming.isNamePart_eq (r : Renaming f) (c : Char) : isNamePart (f c) = isNamePart c := by
  apply r.apply_eq false
  intro c
  cases part : isNamePart c with
  | true => exact Or.inl (Or.inr (Or.inr part))
  | false => exact Or.inr rfl

theorem Renaming.isNameStart_eq (r : Renaming f) (c : Char) :
    isNameStart (f c) = isNameStart c := by
  apply r.apply_eq false
  intro c
  cases start : isNameStart c with
  | true => exact Or.inl (Or.inr (Or.inr (isNamePart_of_isNameStart start)))
  | false => exact Or.inr rfl

theorem Renaming.isDigit_eq (r : Renaming f) (c : Char) : isDigit (f c) = isDigit c := by
  apply r.apply_eq false
  intro c
  cases digit : isDigit c with
  | true => exact Or.inl (Or.inr (Or.inr (by simp [isNamePart, digit])))
  | false => exact Or.inr rfl

theorem Renaming.isGap_eq (r : Renaming f) (c : Char) : isGap (f c) = isGap c := by
  apply r.apply_eq false
  intro c
  cases gap : isGap c with
  | true => exact Or.inl (Or.inl (mem_plainMarks_iff.mpr (Or.inl gap)))
  | false => exact Or.inr rfl

theorem Renaming.punctuation?_eq (r : Renaming f) (c : Char) :
    punctuation? (f c) = punctuation? c := by
  apply r.apply_eq none
  intro c
  cases mark : punctuation? c with
  | none => exact Or.inr rfl
  | some kind =>
    exact Or.inl (Or.inl (mem_plainMarks_iff.mpr (Or.inr (Or.inr (Or.inl (by simp [mark]))))))

theorem ruled_newline : Ruled '\n' := Or.inl (by decide)

theorem ruled_slash : Ruled '/' := Or.inl (by decide)

theorem ruled_star : Ruled '*' := Or.inr (Or.inl rfl)

theorem ruled_underscore : Ruled '_' := Or.inr (Or.inr (by decide))

theorem Renaming.head?_map_iff (r : Renaming f) (ruled : Ruled d) :
    (cs.map f).head? = some d ↔ cs.head? = some d := by
  cases cs with
  | nil => simp
  | cons c cs => simp [r.eq_iff ruled]

theorem Renaming.takeWhile_map (r : Renaming f) (d : Char) (cs : List Char) :
    (cs.map f).takeWhile (· != f d) = (cs.takeWhile (· != d)).map f := by
  have same : (fun c => f c != f d) = fun c => c != d := by
    funext c
    rw [Bool.eq_iff_iff, bne_iff_ne, bne_iff_ne, r.injective.ne_iff]
  rw [List.takeWhile_map]
  exact congrArg (fun p => (cs.takeWhile p).map f) same

theorem Renaming.takeWhile_newline (r : Renaming f) (cs : List Char) :
    (cs.map f).takeWhile (· != '\n') = (cs.takeWhile (· != '\n')).map f := by
  have run := r.takeWhile_map '\n' cs
  rwa [r.fixed '\n' ruled_newline] at run

theorem Renaming.count_newline (r : Renaming f) (cs : List Char) :
    (cs.map f).count '\n' = cs.count '\n' := by
  have counted := List.count_map_of_injective cs f r.injective '\n'
  rwa [r.fixed '\n' ruled_newline] at counted

/-- A place depends on the line feeds in front of it and on nothing else. -/
theorem Renaming.placeAfter_map (r : Renaming f) (file : String) (before : List Char) :
    placeAfter file (before.map f) = placeAfter file before := by
  simp only [placeAfter, r.count_newline, ← List.map_reverse, r.takeWhile_newline, List.length_map]

end Ruled

/-! Readers. -/

section Readers

variable {f : Char → Char} {c : Char} {cs : List Char}

theorem Renaming.startsMark_iff (r : Renaming f) :
    StartsMark (f c) (cs.map f) ↔ StartsMark c cs := by
  rw [StartsMark, StartsMark, r.eq_iff ruled_slash, r.eq_iff ruled_star,
    r.head?_map_iff ruled_slash, r.head?_map_iff ruled_star]

theorem Renaming.commentBody?_map (r : Renaming f) (depth : Nat) (cs : List Char) :
    Reading.commentBody? depth (cs.map f) = (Reading.commentBody? depth cs).map (·.map f) := by
  have slash : f '/' = '/' := r.fixed '/' ruled_slash
  have star : f '*' = '*' := r.fixed '*' ruled_star
  fun_induction Reading.commentBody? depth cs with
  | case1 => rfl
  | case2 depth cs ih =>
    rw [List.map_cons, List.map_cons, slash, star, Reading.commentBody?, ih]
    simp [Function.comp_def, slash, star]
  | case3 cs =>
    rw [List.map_cons, List.map_cons, slash, star]
    rfl
  | case4 depth cs ih =>
    rw [List.map_cons, List.map_cons, slash, star, Reading.commentBody?, ih]
    simp [Function.comp_def, slash, star]
  | case5 depth c cs noOpen noClose noClose' ih =>
    have noMark : ¬ StartsMark c cs := by
      rintro (⟨isSlash, head⟩ | ⟨isStar, head⟩)
      · obtain ⟨rest, start⟩ := List.head?_eq_some_iff.mp head
        exact noOpen rest isSlash start
      · obtain ⟨rest, start⟩ := List.head?_eq_some_iff.mp head
        cases depth with
        | zero => exact noClose rest rfl isStar start
        | succ depth => exact noClose' depth rest rfl isStar start
    rw [List.map_cons, commentBody?_char (by rwa [r.startsMark_iff]), ih]
    simp [Function.comp_def]

theorem Renaming.digitFollows_map (r : Renaming f) (cs : List Char) :
    Reading.digitFollows (cs.map f) = Reading.digitFollows cs := by
  cases cs with
  | nil => rfl
  | cons c cs => simp [Reading.digitFollows, r.isDigit_eq]

theorem Renaming.numberRun_map (r : Renaming f) (cs : List Char) :
    Reading.numberRun (cs.map f) = (Reading.numberRun cs).map f := by
  induction cs with
  | nil => rfl
  | cons c cs ih =>
    simp only [List.map_cons, Reading.numberRun, r.isDigit_eq, r.eq_iff ruled_underscore,
      r.digitFollows_map, ih]
    split_ifs <;> rfl

/-- A reader that finds in a renamed text what it finds in the text, renamed. -/
def Reads (f : Char → Char) (read : List Char → Reading) : Prop :=
  ∀ cs, read (cs.map f) = (read cs).rename f

theorem Renaming.reads_lineComment (r : Renaming f) : Reads f Reading.lineComment := by
  intro cs
  match cs with
  | [] => rfl
  | [_] => rfl
  | _ :: _ :: cs => simp [Reading.lineComment, Reading.rename, r.takeWhile_newline]

theorem Renaming.reads_blockComment (r : Renaming f) : Reads f Reading.blockComment := by
  intro cs
  match cs with
  | [] => rfl
  | [_] => rfl
  | _ :: _ :: cs =>
    simp only [List.map_cons, Reading.blockComment, r.commentBody?_map]
    cases Reading.commentBody? 0 cs with
    | none => simp [Reading.rename, LexFault.rename]
    | some text => simp [Reading.rename]

theorem Renaming.reads_string (r : Renaming f) : Reads f Reading.string := by
  intro cs
  cases cs with
  | nil => rfl
  | cons quote cs =>
    simp only [List.map_cons, Reading.string, r.takeWhile_map, List.length_map]
    split_ifs <;> rfl

theorem Renaming.reads_number (r : Renaming f) : Reads f Reading.number := by
  intro cs
  have separators : (fun c => f c != '_') = fun c => c != '_' := by
    funext c
    rw [Bool.eq_iff_iff, bne_iff_ne, bne_iff_ne, ne_eq, r.eq_iff ruled_underscore]
  simp only [Reading.number, r.numberRun_map, List.filter_map, List.length_map, Reading.rename,
    Function.comp_def, separators]

theorem Renaming.reads_name (r : Renaming f) : Reads f Reading.name := by
  intro cs
  have parts : isNamePart ∘ f = isNamePart := funext r.isNamePart_eq
  simp only [Reading.name, List.takeWhile_map, parts, List.length_map, Reading.rename]

theorem Reads.ofReading {read : List Char → Reading} (h : Reads f read) (kind : TokenKind)
    (cs : List Char) :
    Lexeme.ofReading kind (read (cs.map f)) = (Lexeme.ofReading kind (read cs)).rename f := by
  rw [h cs]
  cases read cs <;> rfl

/-- The first lexeme of a renamed text. -/
theorem Renaming.lexeme_map (r : Renaming f) {delimiter delimiter' : Delimiter}
    (mark : delimiter'.mark = .char (f c) ↔ delimiter.mark = .char c) (cs : List Char) :
    lexeme delimiter' (f c) (cs.map f) = (lexeme delimiter c cs).rename f := by
  simp only [lexeme, r.isGap_eq, r.punctuation?_eq, r.isDigit_eq, r.isNameStart_eq,
    r.eq_iff ruled_newline, r.eq_iff ruled_slash, r.head?_map_iff ruled_slash,
    r.head?_map_iff ruled_star, mark, ← List.map_cons]
  split
  · rfl
  split
  · simp [Lexeme.rename, r.fixed '\n' ruled_newline]
  split
  · rfl
  split
  · exact r.reads_lineComment.ofReading .comment (c :: cs)
  split
  · exact r.reads_blockComment.ofReading .commentBlock (c :: cs)
  split
  · exact r.reads_string.ofReading .string (c :: cs)
  split
  · exact r.reads_number.ofReading .number (c :: cs)
  split
  · exact r.reads_name.ofReading .name (c :: cs)
  · rfl

end Readers

/-! Sources. -/

section Sources

variable {f : Char → Char} {delimiter delimiter' : Delimiter}

theorem renameTokens_add (f : Char → Char) (t : Token) (scan : Scan) :
    renameTokens f (scan.add t).result =
      (renameTokens f scan.result).map (t.rename f :: ·) := by
  cases h : scan.result <;> simp [Scan.add, h, renameTokens, Except.map]

/-- Reading a renamed text gives the renamed tokens or the renamed fault, at the same places. -/
theorem Renaming.scan_map (r : Renaming f) (file : String) (before rest : List Char)
    (marks : ∀ c ∈ rest, delimiter'.mark = .char (f c) ↔ delimiter.mark = .char c) :
    ((Cursor.between (before.map f) (rest.map f)).scan delimiter' file).result =
      renameTokens f ((Cursor.between before rest).scan delimiter file).result := by
  induction rest using lexemes_induction delimiter generalizing before with
  | nil =>
    rw [List.map_nil, Cursor.scan_end, Cursor.scan_end]
    rfl
  | gap c cs blank ih =>
    obtain ⟨mark, marks⟩ := List.forall_mem_cons.mp marks
    have read : lexeme delimiter c cs = .gap := lexeme_eq_gap_iff.mpr blank
    have again : lexeme delimiter' (f c) (cs.map f) = .gap := by
      rw [r.lexeme_map mark, read]
      rfl
    have rest := ih (before ++ [c]) marks
    rw [List.map_append] at rest
    rw [List.map_cons, Cursor.scan_gap again, Cursor.scan_gap read]
    exact rest
  | token kind text raw after spelled ih =>
    have rest := ih (before ++ raw) fun c mem => marks c (List.mem_append_right raw mem)
    rw [List.map_append] at rest
    rw [scan_of_spelled spelled, renameTokens_add, ← rest]
    cases raw with
    | nil => exact absurd rfl spelled.nonempty
    | cons c cs =>
      have mark := marks c (by simp)
      have read : lexeme delimiter c (cs ++ after) = .token kind text (c :: cs).length :=
        lexeme_of_spelled spelled rfl
      have again : lexeme delimiter' (f c) ((cs ++ after).map f) =
          .token kind (text.map f) ((c :: cs).map f).length := by
        rw [r.lexeme_map mark, read, List.length_map]
        rfl
      have split : f c :: (cs ++ after).map f = (c :: cs).map f ++ after.map f := by simp
      rw [List.cons_append, List.map_cons, Cursor.scan_token split (by simp) again]
      simp [Scan.add, Token.rename, renamed, r.placeAfter_map]
  | failed c cs fault size read =>
    have mark := marks c List.mem_cons_self
    have again : lexeme delimiter' (f c) (cs.map f) = .failed (fault.rename f) size := by
      rw [r.lexeme_map mark, read]
      rfl
    rw [List.map_cons, Cursor.scan_failed again, Cursor.scan_failed read, r.placeAfter_map]
    rfl

theorem Renaming.tokenize_renamed (r : Renaming f) (file source : String)
    (marks : ∀ c ∈ source.toList, delimiter'.mark = .char (f c) ↔ delimiter.mark = .char c) :
    tokenize delimiter' file (renamed f source) =
      renameTokens f (tokenize delimiter file source) := by
  have read := r.scan_map file [] source.toList marks
  rw [tokenize, tokenize, Cursor.ofSource_eq_between, Cursor.ofSource_eq_between, renamed,
    String.toList_ofList]
  exact read

end Sources

/-! Renaming twice. -/

section Twice

theorem renamed_id (text : String) : renamed id text = text := by simp [renamed]

theorem renameTokens_id (result : Except LexError (List Token)) :
    renameTokens id result = result := by
  cases result with
  | ok tokens => simp [renameTokens, Token.rename, renamed_id]
  | error e =>
    obtain ⟨fault, location⟩ := e
    cases fault <;> rfl

theorem renameTokens_comp (f g : Char → Char) (result : Except LexError (List Token)) :
    renameTokens f (renameTokens g result) = renameTokens (f ∘ g) result := by
  cases result with
  | ok tokens => simp [renameTokens, Token.rename, renamed]
  | error e =>
    obtain ⟨fault, location⟩ := e
    cases fault <;> rfl

end Twice

/-! Two names exchanged. -/

section Exchange

variable {a b : Char}

theorem renaming_swap (free : ¬ Ruled a) (free' : ¬ Ruled b) : Renaming (Equiv.swap a b) where
  injective := (Equiv.swap a b).injective
  fixed c ruled := by
    apply Equiv.swap_apply_of_ne_of_ne
    · rintro rfl
      exact free ruled
    · rintro rfl
      exact free' ruled

theorem renameTokens_swap_swap (a b : Char) (result : Except LexError (List Token)) :
    renameTokens (Equiv.swap a b) (renameTokens (Equiv.swap a b) result) = result := by
  have back : Equiv.swap a b ∘ Equiv.swap a b = id := by
    funext c
    exact Equiv.swap_apply_self a b c
  rw [renameTokens_comp, back, renameTokens_id]

theorem Delimiter.not_ruled {delimiter : Delimiter} {c : Char} (mark : delimiter.mark = .char c)
    (notStar : c ≠ '*') : ¬ Ruled c := by
  obtain ⟨plain, part⟩ := Delimiter.not_other_class mark
  rintro (isPlain | isStar | isPart)
  · exact plain isPlain
  · exact notStar isStar
  · rw [part] at isPart
    cases isPart

end Exchange

/-- The delimiter is a name like any other. With two characters exchanged that delimit strings in
two ways of reading, none of them the star, a source has the same tokens at the same places, their
texts exchanged, or the same fault, its unexpected character exchanged. A source in which neither
delimiter stands is read in the same way. -/
theorem tokenize_exchanged (delimiter delimiter' : Delimiter) (file : String) :
    (∀ a b, delimiter.mark = .char a → delimiter'.mark = .char b → a ≠ '*' → b ≠ '*' →
      ∀ source,
        (∀ tokens, tokenize delimiter file source = .ok tokens ↔
          tokenize delimiter' file (renamed (Equiv.swap a b) source) =
            .ok (tokens.map (·.rename (Equiv.swap a b)))) ∧
        (∀ e, tokenize delimiter file source = .error e ↔
          tokenize delimiter' file (renamed (Equiv.swap a b) source) =
            .error (e.rename (Equiv.swap a b)))) ∧
    (∀ source, (∀ c ∈ source.toList, delimiter.mark ≠ .char c ∧ delimiter'.mark ≠ .char c) →
      tokenize delimiter file source = tokenize delimiter' file source) := by
  constructor
  · intro a b mark mark' notStar notStar' source
    have r := renaming_swap (Delimiter.not_ruled mark notStar) (Delimiter.not_ruled mark' notStar')
    have marks : ∀ c ∈ source.toList,
        delimiter'.mark = .char (Equiv.swap a b c) ↔ delimiter.mark = .char c := by
      intro c _
      rw [mark, mark', CodePoint.char.injEq, CodePoint.char.injEq, eq_comm, Equiv.swap_apply_eq_iff,
        Equiv.swap_apply_right, eq_comm]
    have read := r.tokenize_renamed file source marks
    have exchanged : ∀ result, tokenize delimiter file source = result ↔
        tokenize delimiter' file (renamed (Equiv.swap a b) source) =
          renameTokens (Equiv.swap a b) result := by
      intro result
      rw [read]
      constructor
      · intro same
        rw [same]
      · intro same
        rw [← renameTokens_swap_swap a b (tokenize delimiter file source), same,
          renameTokens_swap_swap]
    exact ⟨fun tokens => exchanged (.ok tokens), fun e => exchanged (.error e)⟩
  · intro source neither
    have marks : ∀ c ∈ source.toList, delimiter'.mark = .char (id c) ↔ delimiter.mark = .char c := by
      intro c mem
      obtain ⟨notMark, notMark'⟩ := neither c mem
      exact ⟨fun mark => absurd mark notMark', fun mark => absurd mark notMark⟩
    have r : Renaming id := ⟨Function.injective_id, fun _ _ => rfl⟩
    have read := r.tokenize_renamed file source marks
    rw [renamed_id, renameTokens_id] at read
    exact read.symm

theorem quotes_exchanged :
    ∃ double : Delimiter, double.mark = .char '"' ∧
      tokenize .default "a.xo" "'a\"'" = .ok [⟨.string, "a\"", ⟨1, 1, "a.xo"⟩⟩] ∧
      tokenize double "a.xo" "\"a'\"" = .ok [⟨.string, "a'", ⟨1, 1, "a.xo"⟩⟩] ∧
      tokenize .default "a.xo" "\"" = .error ⟨.unexpected '"', ⟨1, 1, "a.xo"⟩⟩ ∧
      tokenize double "a.xo" "'" = .error ⟨.unexpected '\'', ⟨1, 1, "a.xo"⟩⟩ ∧
      tokenize .default "a.xo" "7" = tokenize double "a.xo" "7" := by
  have free : markFault? (.char '"') = none := by decide
  obtain ⟨exchanged, same⟩ := tokenize_exchanged .default ⟨.char '"', free⟩ "a.xo"
  have swapped := exchanged '\'' '"' rfl rfl (by decide) (by decide)
  have read : tokenize .default "a.xo" "'a\"'" = .ok [⟨.string, "a\"", ⟨1, 1, "a.xo"⟩⟩] := by cbv
  have failed : tokenize .default "a.xo" "\"" = .error ⟨.unexpected '"', ⟨1, 1, "a.xo"⟩⟩ := by cbv
  have names : renamed (Equiv.swap '\'' '"') "'a\"'" = "\"a'\"" ∧
      renamed (Equiv.swap '\'' '"') "a\"" = "a'" ∧
      renamed (Equiv.swap '\'' '"') "\"" = "'" := by decide
  obtain ⟨source, text, quote⟩ := names
  have read' := ((swapped _).1 _).mp read
  have failed' := ((swapped _).2 _).mp failed
  rw [source, List.map_singleton, Token.rename, text] at read'
  rw [quote] at failed'
  refine ⟨_, rfl, read, read', failed, failed', same "7" ?_⟩
  simp [Delimiter.default]

end XoLang
