import XoLang.Proofs.Places
import XoLang.Proofs.Runs

/-!
# The lexical grammar

A source is read without a fault exactly when it is made of gaps and of tokens as they are spelled,
and the tokens that reading gives are those, each at the place where its spelling starts. The
grammar says of each kind of token how it is spelled and what must not follow it; it does not
mention how a reader goes over the source.

Block comments are given by a grammar of nested marks. It is not context-free alone: whether two
characters make a mark depends on what follows in the comment, so the rest of the comment is an
index of the grammar.
-/

namespace XoLang

/-- Only blanks. -/
def Gap (w : List Char) : Prop := ∀ c ∈ w, c = ' ' ∨ c = '\t' ∨ c = '\r'

/-- The characters of punctuation with their kinds. -/
def punctuationMarks : List (Char × TokenKind) :=
  [('\x7b', .braceOpen), ('\x7d', .braceClose), ('(', .parenOpen), (')', .parenClose),
   (',', .comma), ('=', .equals)]

/-- A character and the next one are a mark of block comments. -/
def StartsMark (c : Char) (next : List Char) : Prop :=
  (c = '/' ∧ next.head? = some '*') ∨ (c = '*' ∧ next.head? = some '/')

/-- A text inside a block comment that goes on with `after`. -/
inductive CommentText : List Char → List Char → Prop
  | empty {after : List Char} : CommentText after []
  | char {after text : List Char} {c : Char} (noMark : ¬ StartsMark c (text ++ after))
      (rest : CommentText after text) : CommentText after (c :: text)
  | nest {after inner text : List Char} (inside : CommentText ('*' :: '/' :: (text ++ after)) inner)
      (rest : CommentText after text) :
      CommentText after ('/' :: '*' :: (inner ++ '*' :: '/' :: text))

/-- What follows the first digit of a number: digits, with or without an underscore in front. -/
inductive DigitGroups : List Char → Prop
  | done : DigitGroups []
  | digit {c : Char} {cs : List Char} (hc : isDigit c = true) (rest : DigitGroups cs) :
      DigitGroups (c :: cs)
  | separated {c : Char} {cs : List Char} (hc : isDigit c = true) (rest : DigitGroups cs) :
      DigitGroups ('_' :: c :: cs)

/-- What follows a number: no digit, and no underscore in front of one. -/
def NumberEnds (after : List Char) : Prop :=
  StopsAt isDigit after ∧ ∀ rest, after = '_' :: rest → StopsAt isDigit rest

/-- How a token of a kind and a text is spelled when `after` follows it in the source. -/
inductive Spelled (delimiter : Delimiter) :
    (kind : TokenKind) → (text raw after : List Char) → Prop
  | newline {after : List Char} : Spelled delimiter .newline ['\n'] ['\n'] after
  | punctuation {c : Char} {kind : TokenKind} {after : List Char}
      (mark : (c, kind) ∈ punctuationMarks) : Spelled delimiter kind [c] [c] after
  | comment {text after : List Char} (oneLine : '\n' ∉ text)
      (ends : StopsAt (· != '\n') after) :
      Spelled delimiter .comment text ('/' :: '/' :: text) after
  | commentBlock {text after : List Char} (nested : CommentText ['*', '/'] text) :
      Spelled delimiter .commentBlock text ('/' :: '*' :: (text ++ ['*', '/'])) after
  | string {quote : Char} {text after : List Char} (mark : delimiter.mark = .char quote)
      (closed : quote ∉ text) : Spelled delimiter .string text (quote :: (text ++ [quote])) after
  | number {c : Char} {groups after : List Char} (first : isDigit c = true)
      (more : DigitGroups groups) (ends : NumberEnds after) :
      Spelled delimiter .number ((c :: groups).filter (· != '_')) (c :: groups) after
  | name {c : Char} {cs after : List Char} (first : isNameStart c = true)
      (more : ∀ d ∈ cs, isNamePart d = true) (ends : StopsAt isNamePart after) :
      Spelled delimiter .name (c :: cs) (c :: cs) after

/-- The rest of a source behind the characters `before`: gaps and spelled tokens in turn, with a
gap at both ends. -/
inductive Lexed (delimiter : Delimiter) (file : String) :
    (before rest : List Char) → List Token → Prop
  | done {before w : List Char} (gap : Gap w) : Lexed delimiter file before w []
  | token {before w raw text rest : List Char} {kind : TokenKind} {tokens : List Token}
      (gap : Gap w) (spelled : Spelled delimiter kind text raw rest)
      (more : Lexed delimiter file (before ++ w ++ raw) rest tokens) :
      Lexed delimiter file before (w ++ raw ++ rest)
        (⟨kind, String.ofList text, placeAfter file (before ++ w)⟩ :: tokens)

/-! Which reader the first characters choose. -/

theorem isGap_iff {c : Char} : isGap c = true ↔ c = ' ' ∨ c = '\t' ∨ c = '\r' := by
  simp [isGap, or_assoc]

theorem punctuation?_eq_some_iff {c : Char} {kind : TokenKind} :
    punctuation? c = some kind ↔ (c, kind) ∈ punctuationMarks := by
  simp only [punctuation?, punctuationMarks, List.mem_cons, Prod.mk.injEq, List.not_mem_nil,
    or_false]
  grind

/-- The characters that stand for themselves or start a comment. -/
def plainMarks : List Char := [' ', '\t', '\r', '\n', '\x7b', '\x7d', '(', ')', ',', '=', '/']

theorem mem_plainMarks_iff {c : Char} :
    c ∈ plainMarks ↔ isGap c = true ∨ c = '\n' ∨ (punctuation? c).isSome = true ∨ c = '/' := by
  simp only [plainMarks, List.mem_cons, List.not_mem_nil, or_false, isGap, punctuation?]
  grind

theorem not_mem_plainMarks_of_isNamePart {c : Char} (h : isNamePart c = true) :
    c ∉ plainMarks := by
  intro mark
  simp only [plainMarks, List.mem_cons, List.not_mem_nil, or_false] at mark
  rcases mark with rfl | rfl | rfl | rfl | rfl | rfl | rfl | rfl | rfl | rfl | rfl <;>
    exact absurd h (by decide)

theorem isDigit_range {c : Char} (h : isDigit c = true) : 48 ≤ c.toNat ∧ c.toNat ≤ 57 := by
  simp only [isDigit, Bool.and_eq_true, decide_eq_true_eq] at h
  exact ⟨h.1, h.2⟩

theorem isNameStart_of_isDigit {c : Char} (h : isDigit c = true) : isNameStart c = false := by
  obtain ⟨low, high⟩ := isDigit_range h
  have notLetter : Text.isLetter c = false := by
    have value : c.toNat = c.val.toNat := rfl
    rw [Text.isLetter, if_pos (by omega)]
    delta Char.isAlpha Char.isUpper Char.isLower
    simp only [ge_iff_le, UInt32.le_iff_toNat_le, ← value, Bool.or_eq_false_iff,
      Bool.and_eq_false_iff, decide_eq_false_iff_not]
    simp
    omega
  have notLine : c ≠ '_' := by
    rintro rfl
    exact absurd h (by decide)
  simp [isNameStart, notLetter, notLine]

theorem isNamePart_of_isNameStart {c : Char} (h : isNameStart c = true) : isNamePart c = true := by
  simp only [isNameStart, Bool.or_eq_true] at h
  rcases h with letter | line
  · simp [isNamePart, letter]
  · simp [isNamePart, line]

theorem Delimiter.not_other_class {delimiter : Delimiter} {c : Char}
    (h : delimiter.mark = .char c) : c ∉ plainMarks ∧ isNamePart c = false := by
  have free := delimiter.free
  rw [h, markFault?, delimiterFault?] at free
  rw [mem_plainMarks_iff]
  split at free
  · cases free
  · split at free
    · cases free
    · simp_all [isNamePart]

section Chosen

variable {delimiter : Delimiter} {c : Char} {cs : List Char}

theorem ofReading_ne_gap (kind : TokenKind) (reading : Reading) :
    Lexeme.ofReading kind reading ≠ .gap := by
  cases reading <;> simp [Lexeme.ofReading]

theorem lexeme_eq_gap_iff : lexeme delimiter c cs = .gap ↔ isGap c = true := by
  constructor
  · intro h
    by_contra notGap
    rw [lexeme, if_neg notGap] at h
    split at h
    · cases h
    split at h
    · cases h
    split_ifs at h <;> simp [ofReading_ne_gap] at h
  · intro gap
    rw [lexeme, if_pos gap]

theorem lexeme_punctuation {kind : TokenKind} (mark : (c, kind) ∈ punctuationMarks) :
    lexeme delimiter c cs = .token kind [c] 1 := by
  simp only [punctuationMarks, List.mem_cons, Prod.mk.injEq, List.not_mem_nil, or_false] at mark
  rcases mark with ⟨rfl, rfl⟩ | ⟨rfl, rfl⟩ | ⟨rfl, rfl⟩ | ⟨rfl, rfl⟩ | ⟨rfl, rfl⟩ | ⟨rfl, rfl⟩ <;>
    rfl

/-- Any other character starts a string, a number or a name, or is unexpected. -/
theorem lexeme_other (h : c ∉ plainMarks) :
    lexeme delimiter c cs =
      if delimiter.mark = .char c then .ofReading .string (.string (c :: cs))
      else if isDigit c then .ofReading .number (.number (c :: cs))
      else if isNameStart c then .ofReading .name (.name (c :: cs))
      else .failed (.unexpected c) 0 := by
  rw [mem_plainMarks_iff] at h
  simp only [not_or, Bool.not_eq_true, Option.isSome_eq_false_iff, Option.isNone_iff_eq_none] at h
  obtain ⟨notGap, notNewline, notPunctuation, notSlash⟩ := h
  simp [lexeme, notGap, notNewline, notPunctuation, notSlash]

theorem lexeme_slash :
    lexeme delimiter '/' cs =
      if cs.head? = some '/' then .ofReading .comment (.lineComment ('/' :: cs))
      else if cs.head? = some '*' then .ofReading .commentBlock (.blockComment ('/' :: cs))
      else .failed (.unexpected '/') 0 := by
  have notMark : delimiter.mark ≠ .char '/' := fun h =>
    (Delimiter.not_other_class h).1 (by decide)
  have notGap : isGap '/' = false := by decide
  have notPunctuation : punctuation? '/' = none := by decide
  have notDigit : isDigit '/' = false := by decide
  have notName : isNameStart '/' = false := by decide
  simp [lexeme, notGap, notPunctuation, notMark, notDigit, notName]

theorem lexeme_of_isDigit (h : isDigit c = true) :
    lexeme delimiter c cs = .ofReading .number (.number (c :: cs)) := by
  have part : isNamePart c = true := by simp [isNamePart, h]
  have notMark : delimiter.mark ≠ .char c := fun mark => by
    simp [(Delimiter.not_other_class mark).2] at part
  rw [lexeme_other (not_mem_plainMarks_of_isNamePart part), if_neg notMark, if_pos h]

theorem lexeme_of_isNameStart (h : isNameStart c = true) :
    lexeme delimiter c cs = .ofReading .name (.name (c :: cs)) := by
  have part : isNamePart c = true := isNamePart_of_isNameStart h
  have notMark : delimiter.mark ≠ .char c := fun mark => by
    simp [(Delimiter.not_other_class mark).2] at part
  have notDigit : ¬ isDigit c = true := fun digit => by
    simp [isNameStart_of_isDigit digit] at h
  rw [lexeme_other (not_mem_plainMarks_of_isNamePart part), if_neg notMark, if_neg notDigit,
    if_pos h]

end Chosen

/-! Block comments. -/

theorem commentBody?_char {depth : Nat} {c : Char} {cs : List Char} (h : ¬ StartsMark c cs) :
    Reading.commentBody? depth (c :: cs) = (Reading.commentBody? depth cs).map (c :: ·) := by
  have noOpen : ∀ rest, c = '/' → cs = '*' :: rest → False := by
    rintro rest rfl rfl
    exact h (Or.inl ⟨rfl, rfl⟩)
  have noClose : ∀ rest, c = '*' → cs = '/' :: rest → False := by
    rintro rest rfl rfl
    exact h (Or.inr ⟨rfl, rfl⟩)
  rw [Reading.commentBody?.eq_5 depth c cs noOpen (fun rest _ => noClose rest)
    (fun _ rest _ => noClose rest)]

theorem startsMark_append {c : Char} {next : List Char} (nonempty : next ≠ []) (more : List Char) :
    StartsMark c (next ++ more) ↔ StartsMark c next := by
  cases next with
  | nil => exact absurd rfl nonempty
  | cons d next => rfl

/-- Inside a comment the reader passes a text and goes on at the same depth. -/
theorem commentBody?_append {after text : List Char} (h : CommentText after text)
    (nonempty : after ≠ []) (depth : Nat) (more : List Char) :
    Reading.commentBody? depth (text ++ (after ++ more)) =
      (Reading.commentBody? depth (after ++ more)).map (text ++ ·) := by
  induction h generalizing depth with
  | empty => simp
  | @char after text c noMark rest ih =>
    have noMark' : ¬ StartsMark c (text ++ (after ++ more)) := by
      rwa [← List.append_assoc, startsMark_append (by simp [nonempty])]
    rw [List.cons_append, commentBody?_char noMark', ih nonempty, Option.map_map]
    rfl
  | @nest after inner text inside rest ihInside ihRest =>
    have inner := ihInside (by simp) (depth + 1)
    simp only [List.cons_append, List.append_assoc] at inner ⊢
    rw [Reading.commentBody?, inner, Reading.commentBody?, ihRest nonempty]
    simp [Function.comp_def]

/-- What is left of a comment in which `depth` more comments are open. -/
inductive CommentEnd : Nat → List Char → Prop
  | mark : CommentEnd 0 ['*', '/']
  | opened {depth : Nat} {after text : List Char} (inside : CommentText after text)
      (outside : CommentEnd depth after) : CommentEnd (depth + 1) ('*' :: '/' :: (text ++ after))

/-- What the reader finds is a text of the grammar in front of what closes the comments that are
open. -/
theorem commentText_of_commentBody? {depth : Nat} {cs text : List Char}
    (h : Reading.commentBody? depth cs = some text) :
    (∃ more, cs = text ++ '*' :: '/' :: more) ∧
      ∃ inner after, text ++ ['*', '/'] = inner ++ after ∧ CommentText after inner ∧
        CommentEnd depth after := by
  fun_induction Reading.commentBody? depth cs generalizing text with
  | case1 => cases h
  | case2 depth cs ih =>
    obtain ⟨found, read, rfl⟩ := Option.map_eq_some_iff.mp h
    obtain ⟨⟨more, rfl⟩, inner, after, split, inside, outside⟩ := ih read
    cases outside with
    | @opened _ after text inside' outside =>
      refine ⟨⟨more, rfl⟩, '/' :: '*' :: (inner ++ '*' :: '/' :: text), after, ?_,
        .nest inside inside', outside⟩
      simp [split]
  | case3 more =>
    cases h
    exact ⟨⟨more, rfl⟩, [], ['*', '/'], rfl, .empty, .mark⟩
  | case4 depth cs ih =>
    obtain ⟨found, read, rfl⟩ := Option.map_eq_some_iff.mp h
    obtain ⟨⟨more, rfl⟩, inner, after, split, inside, outside⟩ := ih read
    refine ⟨⟨more, rfl⟩, [], '*' :: '/' :: (inner ++ after), ?_, .empty, .opened inside outside⟩
    simp [split]
  | case5 depth c cs noOpen noClose noClose' ih =>
    obtain ⟨found, read, rfl⟩ := Option.map_eq_some_iff.mp h
    obtain ⟨⟨more, rfl⟩, inner, after, split, inside, outside⟩ := ih read
    have noMark : ¬ StartsMark c (inner ++ after) := by
      rw [← split, ← startsMark_append (by simp) more]
      rintro (⟨slash, head⟩ | ⟨star, head⟩)
      · obtain ⟨rest, start⟩ := List.head?_eq_some_iff.mp head
        exact noOpen rest slash (by simpa using start)
      · obtain ⟨rest, start⟩ := List.head?_eq_some_iff.mp head
        cases depth with
        | zero => exact noClose rest rfl star (by simpa using start)
        | succ depth => exact noClose' depth rest rfl star (by simpa using start)
    exact ⟨⟨more, rfl⟩, c :: inner, after, by simp [split], .char noMark inside, outside⟩

theorem commentBody?_eq_some_iff {cs text : List Char} :
    Reading.commentBody? 0 cs = some text ↔
      ∃ more, cs = text ++ '*' :: '/' :: more ∧ CommentText ['*', '/'] text := by
  constructor
  · intro h
    obtain ⟨⟨more, split⟩, inner, after, same, inside, outside⟩ := commentText_of_commentBody? h
    cases outside with
    | mark => exact ⟨more, split, List.append_cancel_right same ▸ inside⟩
  · rintro ⟨more, rfl, inside⟩
    have read := commentBody?_append inside (by simp) 0 more
    simpa [Reading.commentBody?] using read

/-! Numbers. -/

theorem numberRun_eq_nil {after : List Char} (ends : NumberEnds after) :
    Reading.numberRun after = [] := by
  cases after with
  | nil => rfl
  | cons c rest =>
    have noDigit : isDigit c = false := ends.1 c rest rfl
    have noGroup : ¬ (c = '_' ∧ Reading.digitFollows rest = true) := by
      rintro ⟨rfl, follows⟩
      have stop := ends.2 rest rfl
      cases rest with
      | nil => cases follows
      | cons d rest => simp [Reading.digitFollows, stop d rest rfl] at follows
    simp [Reading.numberRun, noDigit, noGroup]

theorem numberRun_append {groups after : List Char} (h : DigitGroups groups)
    (ends : NumberEnds after) : Reading.numberRun (groups ++ after) = groups := by
  induction h with
  | done => exact numberRun_eq_nil ends
  | digit hc rest ih => simp [Reading.numberRun, hc, ih]
  | separated hc rest ih => simp [Reading.numberRun, Reading.digitFollows, hc, ih]

theorem digitGroups_of_cons {c : Char} {cs : List Char} (hc : isDigit c = true)
    (h : DigitGroups (c :: cs)) : DigitGroups cs := by
  cases h with
  | digit _ rest => exact rest
  | separated _ _ => exact absurd hc (by decide)

theorem digitGroups_numberRun (cs : List Char) :
    DigitGroups (Reading.numberRun cs) ∧
      ∃ after, cs = Reading.numberRun cs ++ after ∧ NumberEnds after := by
  induction cs with
  | nil => exact ⟨.done, [], rfl, stopsAt_nil _, by simp⟩
  | cons c cs ih =>
    obtain ⟨groups, after, split, ends⟩ := ih
    rw [Reading.numberRun]
    by_cases hc : isDigit c = true
    · rw [if_pos (by simp [hc])]
      exact ⟨.digit hc groups, after, by rw [List.cons_append, ← split], ends⟩
    by_cases sep : c = '_' ∧ Reading.digitFollows cs = true
    · rw [if_pos (by simp [sep])]
      obtain ⟨rfl, follows⟩ := sep
      refine ⟨?_, after, by rw [List.cons_append, ← split], ends⟩
      cases cs with
      | nil => cases follows
      | cons d cs =>
        have hd : isDigit d = true := by simpa [Reading.digitFollows] using follows
        have run : Reading.numberRun (d :: cs) = d :: Reading.numberRun cs := by
          simp [Reading.numberRun, hd]
        rw [run] at groups ⊢
        exact .separated hd (digitGroups_of_cons hd groups)
    · rw [if_neg (by simpa [hc] using sep)]
      refine ⟨.done, c :: cs, rfl, stopsAt_cons (by simpa using hc) cs, ?_⟩
      rintro rest ⟨rfl, rfl⟩ d more rfl
      simpa [Reading.digitFollows] using sep

/-! Lexemes. -/

theorem forall_mem_bne_iff {c : Char} {text : List Char} :
    (∀ a ∈ text, (a != c) = true) ↔ c ∉ text := by
  simp only [bne_iff_ne]
  exact ⟨fun h mem => h c mem rfl, fun h a mem same => h (same ▸ mem)⟩

/-- A spelled token is what the reader finds, whatever follows it within the rules. -/
theorem lexeme_of_spelled {delimiter : Delimiter} {kind : TokenKind} {text raw after : List Char}
    (h : Spelled delimiter kind text raw after) {c : Char} {cs : List Char}
    (split : c :: cs = raw ++ after) : lexeme delimiter c cs = .token kind text raw.length := by
  cases h with
  | newline =>
    obtain ⟨rfl, rfl⟩ := List.cons.inj split
    rfl
  | punctuation mark =>
    obtain ⟨rfl, rfl⟩ := List.cons.inj split
    exact lexeme_punctuation mark
  | comment oneLine ends =>
    simp only [List.cons_append, List.cons.injEq] at split
    obtain ⟨rfl, rfl⟩ := split
    have run := takeWhile_append_of_stopsAt (forall_mem_bne_iff.mpr oneLine) ends
    rw [lexeme_slash, if_pos (by simp)]
    simp [Reading.lineComment, Lexeme.ofReading, run]
  | commentBlock nested =>
    simp only [List.cons_append, List.append_assoc, List.cons.injEq] at split
    obtain ⟨rfl, rfl⟩ := split
    have read := commentBody?_eq_some_iff.mpr ⟨after, rfl, nested⟩
    rw [lexeme_slash, if_neg (by simp), if_pos (by simp)]
    simp [Reading.blockComment, Lexeme.ofReading, read]
  | @string quote _ _ mark closed =>
    simp only [List.cons_append, List.append_assoc, List.cons.injEq] at split
    obtain ⟨rfl, rfl⟩ := split
    have stop : StopsAt (· != c) (c :: after) := stopsAt_cons (by simp) after
    have run := takeWhile_append_of_stopsAt (forall_mem_bne_iff.mpr closed) stop
    rw [lexeme_other (Delimiter.not_other_class mark).1, if_pos mark]
    simp [Reading.string, Lexeme.ofReading, run]
  | number first more ends =>
    simp only [List.cons_append, List.cons.injEq] at split
    obtain ⟨rfl, rfl⟩ := split
    have run := numberRun_append (.digit first more) ends
    rw [lexeme_of_isDigit first, Reading.number, ← List.cons_append, run]
    rfl
  | @name _ letters _ first more ends =>
    simp only [List.cons_append, List.cons.injEq] at split
    obtain ⟨rfl, rfl⟩ := split
    have parts : ∀ d ∈ c :: letters, isNamePart d = true :=
      List.forall_mem_cons.mpr ⟨isNamePart_of_isNameStart first, more⟩
    have run := takeWhile_append_of_stopsAt parts ends
    rw [lexeme_of_isNameStart first, Reading.name, ← List.cons_append, run]
    rfl

/-- A token that starts with its first characters and is spelled by the rules. -/
def StartsSpelled (delimiter : Delimiter) (cs : List Char) (kind : TokenKind) (text : List Char)
    (size : Nat) : Prop :=
  ∃ raw after, cs = raw ++ after ∧ raw ≠ [] ∧ raw.length = size ∧
    Spelled delimiter kind text raw after

theorem startsSpelled_of_slash {delimiter : Delimiter} {cs text : List Char} {kind : TokenKind}
    {size : Nat} (h : lexeme delimiter '/' cs = .token kind text size) :
    StartsSpelled delimiter ('/' :: cs) kind text size := by
  rw [lexeme_slash] at h
  split at h
  · rename_i head
    obtain ⟨rest, rfl⟩ := List.head?_eq_some_iff.mp head
    cases h
    obtain ⟨after, split, oneLine, ends⟩ := exists_takeWhile_append (· != '\n') rest
    refine ⟨'/' :: '/' :: rest.takeWhile (· != '\n'), after, ?_, by simp, rfl,
      .comment (forall_mem_bne_iff.mp oneLine) ends⟩
    rw [List.cons_append, List.cons_append, ← split]
  split at h
  · rename_i head
    obtain ⟨rest, rfl⟩ := List.head?_eq_some_iff.mp head
    rw [Reading.blockComment] at h
    cases read : Reading.commentBody? 0 rest with
    | none => simp [read, Lexeme.ofReading] at h
    | some body =>
      simp only [read, Lexeme.ofReading, Lexeme.token.injEq] at h
      obtain ⟨rfl, rfl, rfl⟩ := h
      obtain ⟨after, rfl, nested⟩ := commentBody?_eq_some_iff.mp read
      exact ⟨'/' :: '*' :: (body ++ ['*', '/']), after, by simp, by simp, by simp,
        .commentBlock nested⟩
  · cases h

theorem startsSpelled_of_other {delimiter : Delimiter} {c : Char} {cs text : List Char}
    {kind : TokenKind} {size : Nat} (other : c ∉ plainMarks)
    (h : lexeme delimiter c cs = .token kind text size) :
    StartsSpelled delimiter (c :: cs) kind text size := by
  rw [lexeme_other other] at h
  split at h
  · rename_i mark
    obtain ⟨after, split, closed, ends⟩ := exists_takeWhile_append (· != c) cs
    simp only [Reading.string] at h
    split at h
    · rename_i shorter
      cases h
      cases after with
      | nil =>
        rw [List.append_nil] at split
        rw [← split] at shorter
        exact absurd shorter (Nat.lt_irrefl _)
      | cons d after =>
        have same : d = c := by simpa using ends d after rfl
        subst same
        refine ⟨d :: (cs.takeWhile (· != d) ++ [d]), after, ?_, by simp, by simp,
          .string mark (forall_mem_bne_iff.mp closed)⟩
        rw [List.cons_append, List.append_assoc, List.singleton_append, ← split]
    · cases h
  split at h
  · rename_i first
    cases h
    obtain ⟨groups, after, split, ends⟩ := digitGroups_numberRun cs
    have run : Reading.numberRun (c :: cs) = c :: Reading.numberRun cs := by
      simp [Reading.numberRun, first]
    rw [run]
    exact ⟨c :: Reading.numberRun cs, after, by rw [List.cons_append, ← split], by simp, rfl,
      .number first groups ends⟩
  split at h
  · rename_i first
    cases h
    obtain ⟨after, split, parts, ends⟩ := exists_takeWhile_append isNamePart cs
    rw [List.takeWhile_cons_of_pos (isNamePart_of_isNameStart first)]
    exact ⟨c :: cs.takeWhile isNamePart, after, by rw [List.cons_append, ← split], by simp, rfl,
      .name first parts ends⟩
  · cases h

/-- Whatever token the reader finds is spelled by the rules. -/
theorem startsSpelled_of_lexeme {delimiter : Delimiter} {c : Char} {cs text : List Char}
    {kind : TokenKind} {size : Nat} (h : lexeme delimiter c cs = .token kind text size) :
    StartsSpelled delimiter (c :: cs) kind text size := by
  by_cases plain : c ∈ plainMarks
  · rcases mem_plainMarks_iff.mp plain with gap | rfl | mark | rfl
    · rw [lexeme_eq_gap_iff.mpr gap] at h
      cases h
    · cases h
      exact ⟨['\n'], cs, rfl, by simp, rfl, .newline⟩
    · obtain ⟨kind', mark⟩ := Option.isSome_iff_exists.mp mark
      rw [punctuation?_eq_some_iff] at mark
      rw [lexeme_punctuation mark] at h
      cases h
      exact ⟨[c], cs, rfl, by simp, rfl, .punctuation mark⟩
    · exact startsSpelled_of_slash h
  · exact startsSpelled_of_other plain h

/-! Sources. -/

section Sources

variable {delimiter : Delimiter} {file : String} {before rest : List Char} {tokens : List Token}

theorem Gap.cons {c : Char} {w : List Char} (hc : isGap c = true) (h : Gap w) : Gap (c :: w) :=
  List.forall_mem_cons.mpr ⟨isGap_iff.mp hc, h⟩

/-- A blank in front belongs to the first gap. -/
theorem Lexed.gap {c : Char} (hc : isGap c = true)
    (h : Lexed delimiter file (before ++ [c]) rest tokens) :
    Lexed delimiter file before (c :: rest) tokens := by
  cases h with
  | done gap => exact .done (Gap.cons hc gap)
  | @token _ w raw text rest kind tokens gap spelled more =>
    have place : before ++ [c] ++ w = before ++ c :: w := by simp
    rw [place] at more ⊢
    exact .token (Gap.cons hc gap) spelled more

/-- A spelled token may stand in front without a gap. -/
theorem Lexed.spelled {kind : TokenKind} {text raw : List Char}
    (h : Spelled delimiter kind text raw rest)
    (more : Lexed delimiter file (before ++ raw) rest tokens) :
    Lexed delimiter file before (raw ++ rest)
      (⟨kind, String.ofList text, placeAfter file before⟩ :: tokens) := by
  have nothing : Gap [] := by simp [Gap]
  have place : before ++ [] = before := List.append_nil before
  have behind : Lexed delimiter file (before ++ [] ++ raw) rest tokens := by rwa [place]
  simpa only [place, List.nil_append] using Lexed.token nothing h behind

theorem scan_of_gap {w : List Char} (gap : Gap w) :
    (Cursor.between before (w ++ rest)).scan delimiter file =
      (Cursor.between (before ++ w) rest).scan delimiter file := by
  induction w generalizing before with
  | nil => simp
  | cons c w ih =>
    obtain ⟨hc, gap⟩ := List.forall_mem_cons.mp gap
    rw [List.cons_append, Cursor.scan_gap (lexeme_eq_gap_iff.mpr (isGap_iff.mpr hc)), ih gap]
    simp

theorem Spelled.nonempty {kind : TokenKind} {text raw : List Char}
    (h : Spelled delimiter kind text raw rest) : raw ≠ [] := by
  cases h <;> simp

/-- Reading a spelled token goes on behind it. -/
theorem scan_of_spelled {kind : TokenKind} {text raw : List Char}
    (h : Spelled delimiter kind text raw rest) :
    (Cursor.between before (raw ++ rest)).scan delimiter file =
      ((Cursor.between (before ++ raw) rest).scan delimiter file).add
        ⟨kind, String.ofList text, placeAfter file before⟩ := by
  cases split : raw ++ rest with
  | nil => exact absurd (List.append_eq_nil_iff.mp split).1 h.nonempty
  | cons c cs =>
    exact Cursor.scan_token split.symm h.nonempty (lexeme_of_spelled h split.symm)

theorem scan_of_lexed (h : Lexed delimiter file before rest tokens) :
    ((Cursor.between before rest).scan delimiter file).result = .ok tokens := by
  induction h with
  | @done before w gap =>
    have read : (Cursor.between before (w ++ [])).scan delimiter file =
        (Cursor.between (before ++ w) []).scan delimiter file := scan_of_gap gap
    rw [List.append_nil] at read
    rw [read, Cursor.scan_end]
  | token gap spelled more ih =>
    rw [List.append_assoc, scan_of_gap gap, scan_of_spelled spelled]
    exact Scan.result_add_eq_ok_iff.mpr ⟨_, ih, rfl⟩

/-- Induction along the lexemes of a text: nothing, a blank in front, a spelled token in front, or a
fault. -/
theorem lexemes_induction (delimiter : Delimiter) {motive : List Char → Prop} (nil : motive [])
    (gap : ∀ c cs, isGap c = true → motive cs → motive (c :: cs))
    (token : ∀ kind text raw after, Spelled delimiter kind text raw after → motive after →
      motive (raw ++ after))
    (failed : ∀ c cs fault size, lexeme delimiter c cs = .failed fault size → motive (c :: cs))
    (rest : List Char) : motive rest := by
  -- Every lexeme shortens what is left.
  induction size : rest.length using Nat.strong_induction_on generalizing rest with
  | _ n ih =>
    subst size
    cases rest with
    | nil => exact nil
    | cons c cs =>
      cases read : lexeme delimiter c cs with
      | gap => exact gap c cs (lexeme_eq_gap_iff.mp read) (ih cs.length (by simp) cs rfl)
      | token kind text size =>
        obtain ⟨raw, after, split, nonempty, -, spelled⟩ := startsSpelled_of_lexeme read
        have shorter : after.length < (c :: cs).length := by
          have positive := List.length_pos_iff.mpr nonempty
          rw [split, List.length_append]
          omega
        rw [split]
        exact token kind text raw after spelled (ih after.length shorter after rfl)
      | failed fault size => exact failed c cs fault size read

theorem lexed_of_scan (h : ((Cursor.between before rest).scan delimiter file).result = .ok tokens) :
    Lexed delimiter file before rest tokens := by
  induction rest using lexemes_induction delimiter generalizing before tokens with
  | nil =>
    rw [Cursor.scan_end] at h
    cases h
    exact .done (by simp [Gap])
  | gap c cs blank ih =>
    rw [Cursor.scan_gap (lexeme_eq_gap_iff.mpr blank)] at h
    exact .gap blank (ih h)
  | token kind text raw after spelled ih =>
    rw [scan_of_spelled spelled] at h
    obtain ⟨more, scanned, rfl⟩ := Scan.result_add_eq_ok_iff.mp h
    exact .spelled spelled (ih scanned)
  | failed c cs fault size read =>
    rw [Cursor.scan_failed read] at h
    cases h

end Sources

/-- Reading succeeds with some tokens exactly when the source is gaps and these tokens as they are
spelled, each token at the place of its first character. -/
theorem tokenize_eq_ok_iff (delimiter : Delimiter) (file source : String) (tokens : List Token) :
    tokenize delimiter file source = .ok tokens ↔
      Lexed delimiter file [] source.toList tokens := by
  rw [tokenize, Cursor.ofSource_eq_between]
  exact ⟨lexed_of_scan, scan_of_lexed⟩

end XoLang
