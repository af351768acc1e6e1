import XoLang.Proofs.ReadBack

/-!
# Spacing

Kinds and texts of tokens can be written down with the marks that reading takes off. Blanks behind
every token but a comment keep the tokens apart, and then it does not matter which blanks these
are: reading gives the kinds and texts back. Which kinds and texts can be written is said without
a reader, and reading gives no others.
-/

namespace XoLang

/-- What a token says, without its place. -/
def Token.content (t : Token) : TokenKind × String := (t.kind, t.text)

/-- A text that a token of a kind can have. -/
def TextFits (delimiter : Delimiter) : TokenKind → List Char → Prop
  | .name, text => Identifier text
  | .number, text => Numeral text
  | .string, text => ∃ quote, delimiter.mark = .char quote ∧ quote ∉ text
  | .comment, text => '\n' ∉ text
  | .commentBlock, text => CommentText ['*', '/'] text
  | .newline, text => text = ['\n']
  | kind, text => ∃ c, (c, kind) ∈ punctuationMarks ∧ text = [c]

/-- Contents of tokens that can be written: each text fits its kind, and a comment is the last one
or stands before a line end. -/
structure Writable (delimiter : Delimiter) (contents : List (TokenKind × String)) : Prop where
  texts : ∀ content ∈ contents, TextFits delimiter content.1 content.2.toList
  comments : contents.IsChain fun a b => a.1 = .comment → b.1 = .newline

/-- A text of a kind with the marks that belong to it. -/
def sourceForm (delimiter : Delimiter) : TokenKind → List Char → List Char
  | .string, text =>
    match delimiter.mark with
    | .char quote => quote :: (text ++ [quote])
    | _ => text
  | .comment, text => '/' :: '/' :: text
  | .commentBlock, text => '/' :: '*' :: (text ++ ['*', '/'])
  | _, text => text

/-- Contents of tokens, each with the blanks behind it. There are some unless it is a comment, which
would take them for its own. -/
def Spaced (pieces : List ((TokenKind × String) × List Char)) : Prop :=
  ∀ piece ∈ pieces, Gap piece.2 ∧ (piece.2 = [] ↔ piece.1.1 = .comment)

/-- The characters of spaced contents. -/
def written (delimiter : Delimiter) (pieces : List ((TokenKind × String) × List Char)) :
    List Char :=
  pieces.flatMap fun piece => sourceForm delimiter piece.1.1 piece.1.2.toList ++ piece.2

/-- What stands behind a token of a kind when tokens are kept apart: the end of the line behind a
comment, a blank behind any other. -/
def Apart (kind : TokenKind) (rest : List Char) : Prop :=
  if kind = .comment then StopsAt (· != '\n') rest else ∃ c more, rest = c :: more ∧ isGap c = true

/-- The second text has the lexemes of the first one, kept apart by blanks. -/
inductive Respaced (delimiter : Delimiter) : List Char → List Char → Prop
  | done {w w' : List Char} (gap : Gap w) (gap' : Gap w') : Respaced delimiter w w'
  | token {w w' raw text rest rest' : List Char} {kind : TokenKind} (gap : Gap w) (gap' : Gap w')
      (spelled : Spelled delimiter kind text raw rest) (apart : Apart kind rest')
      (more : Respaced delimiter rest rest') :
      Respaced delimiter (w ++ raw ++ rest) (w' ++ raw ++ rest')

/-! One token. -/

section Single

variable {delimiter : Delimiter} {kind : TokenKind} {text raw after rest : List Char}

theorem Apart.stopsAt_newline (h : Apart .comment rest) : StopsAt (· != '\n') rest := by
  simpa [Apart] using h

theorem isNamePart_of_isGap {c : Char} (h : isGap c = true) : isNamePart c = false := by
  rcases isGap_iff.mp h with rfl | rfl | rfl <;> decide

theorem Apart.stopsAt_isNamePart (other : kind ≠ .comment) (h : Apart kind rest) :
    StopsAt isNamePart rest := by
  rw [Apart, if_neg other] at h
  obtain ⟨c, more, rfl, blank⟩ := h
  exact stopsAt_cons (isNamePart_of_isGap blank) more

theorem Spelled.respaced (h : Spelled delimiter kind text raw after) (apart : Apart kind rest) :
    Spelled delimiter kind text raw rest := by
  cases h with
  | newline => exact .newline
  | punctuation mark => exact .punctuation mark
  | comment oneLine _ => exact .comment oneLine apart.stopsAt_newline
  | commentBlock nested => exact .commentBlock nested
  | string mark closed => exact .string mark closed
  | number first more _ =>
    exact .number first more (numberEnds_of_stopsAt (apart.stopsAt_isNamePart (by simp)))
  | name first more _ => exact .name first more (apart.stopsAt_isNamePart (by simp))

/-- A text that fits its kind is read from its written form. -/
theorem spelled_sourceForm (fits : TextFits delimiter kind text) (apart : Apart kind rest) :
    Spelled delimiter kind text (sourceForm delimiter kind text) rest := by
  cases kind with
  | name =>
    obtain ⟨c, cs, rfl, first, more⟩ := fits
    exact .name first more (apart.stopsAt_isNamePart (by simp))
  | number =>
    obtain ⟨nonempty, digits⟩ := fits
    have ends := numberEnds_of_stopsAt (apart.stopsAt_isNamePart (by simp))
    have unchanged : text.filter (· != '_') = text :=
      List.filter_eq_self.mpr fun c mem => by simpa using ne_underscore_of_isDigit (digits c mem)
    cases text with
    | nil => exact absurd rfl nonempty
    | cons c cs =>
      obtain ⟨first, more⟩ := List.forall_mem_cons.mp digits
      have spelled : Spelled delimiter .number _ (c :: cs) rest :=
        .number first (digitGroups_of_digits more) ends
      rwa [unchanged] at spelled
  | string =>
    obtain ⟨quote, mark, closed⟩ := fits
    simp only [sourceForm, mark]
    exact .string mark closed
  | comment => exact .comment fits apart.stopsAt_newline
  | commentBlock => exact .commentBlock fits
  | newline =>
    obtain rfl : text = ['\n'] := fits
    exact .newline
  | equals | comma | parenOpen | parenClose | braceOpen | braceClose =>
    obtain ⟨c, mark, rfl⟩ := fits
    exact .punctuation mark

theorem Spelled.textFits (h : Spelled delimiter kind text raw after) :
    TextFits delimiter kind text := by
  have fits := h.fits nowhere
  cases h with
  | newline => rfl
  | @punctuation c kind _ mark =>
    have marks := mark
    simp only [punctuationMarks, List.mem_cons, Prod.mk.injEq, List.not_mem_nil, or_false] at marks
    rcases marks with ⟨rfl, rfl⟩ | ⟨rfl, rfl⟩ | ⟨rfl, rfl⟩ | ⟨rfl, rfl⟩ | ⟨rfl, rfl⟩ | ⟨rfl, rfl⟩ <;>
      exact ⟨_, mark, rfl⟩
  | comment oneLine _ => exact oneLine
  | commentBlock nested => exact nested
  | string mark closed => exact ⟨_, mark, closed⟩
  | number => simpa [TextFits] using fits.number rfl
  | name => simpa [TextFits] using fits.name rfl

end Single

/-! Whole texts. -/

section Texts

variable {delimiter : Delimiter} {file : String} {before rest source source' : List Char}
variable {tokens : List Token}

theorem Lexed.behind_gap {w : List Char} (gap : Gap w)
    (h : Lexed delimiter file (before ++ w) rest tokens) :
    Lexed delimiter file before (w ++ rest) tokens := by
  induction w generalizing before with
  | nil => simpa using h
  | cons c w ih =>
    obtain ⟨blank, gap⟩ := List.forall_mem_cons.mp gap
    refine Lexed.gap (isGap_iff.mpr blank) (ih gap ?_)
    simpa using h

theorem Lexed.writable (h : Lexed delimiter file before rest tokens) :
    Writable delimiter (tokens.map Token.content) := by
  constructor
  · induction h with
    | done => simp
    | token _ spelled _ ih =>
      rw [List.map_cons]
      exact List.forall_mem_cons.mpr ⟨by simpa [Token.content] using spelled.textFits, ih⟩
  · exact (List.isChain_map Token.content).mpr h.commentsEnd

/-- What is written behind a token of writable, spaced contents keeps it apart. -/
theorem apart_written {content : TokenKind × String} {gap : List Char}
    {pieces : List ((TokenKind × String) × List Char)}
    (writable : Writable delimiter (content :: pieces.map Prod.fst))
    (spaced : Spaced ((content, gap) :: pieces)) :
    Apart content.1 (gap ++ written delimiter pieces) := by
  obtain ⟨blanks, empty⟩ : Gap gap ∧ (gap = [] ↔ content.1 = .comment) :=
    spaced _ List.mem_cons_self
  rw [Apart]
  split
  · rename_i comment
    rw [empty.mpr comment, List.nil_append]
    cases pieces with
    | nil => exact stopsAt_nil _
    | cons next pieces =>
      obtain ⟨following, -⟩ := List.isChain_cons.mp writable.comments
      have newline : next.1.1 = .newline := following next.1 rfl comment
      have text := writable.texts next.1 (by simp)
      rw [newline] at text
      have feed : next.1.2.toList = ['\n'] := text
      simp only [written, List.flatMap_cons, newline, feed, sourceForm]
      exact stopsAt_cons (by decide) _
  · rename_i other
    cases gap with
    | nil => exact absurd (empty.mp rfl) other
    | cons c gap => exact ⟨c, _, rfl, isGap_iff.mpr (blanks c List.mem_cons_self)⟩

theorem lexed_written (file : String) (before : List Char)
    {pieces : List ((TokenKind × String) × List Char)}
    (writable : Writable delimiter (pieces.map Prod.fst)) (spaced : Spaced pieces) :
    ∃ tokens, Lexed delimiter file before (written delimiter pieces) tokens ∧
      tokens.map Token.content = pieces.map Prod.fst := by
  induction pieces generalizing before with
  | nil => exact ⟨[], .done (by simp [written, Gap]), rfl⟩
  | cons piece pieces ih =>
    obtain ⟨⟨kind, text⟩, gap⟩ := piece
    have apart := apart_written writable spaced
    obtain ⟨⟨blanks, -⟩, spaced⟩ := List.forall_mem_cons.mp spaced
    obtain ⟨fits, texts⟩ := List.forall_mem_cons.mp writable.texts
    have rest : Writable delimiter (pieces.map Prod.fst) := ⟨texts, writable.comments.tail⟩
    obtain ⟨tokens, lexed, same⟩ :=
      ih (before ++ sourceForm delimiter kind text.toList ++ gap) rest spaced
    have first := Lexed.spelled (spelled_sourceForm fits apart) (lexed.behind_gap blanks)
    refine ⟨_, by simpa [written] using first, ?_⟩
    simp [same, Token.content]

/-- Other blanks between the same lexemes give tokens that say the same. -/
theorem Respaced.lexed (h : Respaced delimiter source source') (file : String)
    (before before' : List Char) :
    ∃ tokens tokens', Lexed delimiter file before source tokens ∧
      Lexed delimiter file before' source' tokens' ∧
      tokens'.map Token.content = tokens.map Token.content := by
  induction h generalizing before before' with
  | done gap gap' => exact ⟨[], [], .done gap, .done gap', rfl⟩
  | token gap gap' spelled apart _ ih =>
    obtain ⟨tokens, tokens', lexed, lexed', same⟩ := ih _ _
    exact ⟨_, _, .token gap spelled lexed, .token gap' (spelled.respaced apart) lexed',
      by simp [same, Token.content]⟩

end Texts

/-- Spacing does not matter. Contents that can be written are read back from what is written,
whatever the blanks in front and behind each token; reading gives only contents that can be written;
and a source with other blanks between its lexemes gives tokens of the same contents. -/
theorem tokenize_spaced (delimiter : Delimiter) (file : String) :
    (∀ front pieces, Gap front → Writable delimiter (pieces.map Prod.fst) → Spaced pieces →
      ∃ tokens, tokenize delimiter file (String.ofList (front ++ written delimiter pieces)) =
          .ok tokens ∧ tokens.map Token.content = pieces.map Prod.fst) ∧
    (∀ source tokens, tokenize delimiter file source = .ok tokens →
      Writable delimiter (tokens.map Token.content)) ∧
    ∀ source source' tokens, tokenize delimiter file source = .ok tokens →
      Respaced delimiter source.toList source'.toList →
      ∃ tokens', tokenize delimiter file source' = .ok tokens' ∧
        tokens'.map Token.content = tokens.map Token.content := by
  have reads : ∀ source tokens, tokenize delimiter file source = .ok tokens ↔
      Lexed delimiter file [] source.toList tokens := by
    intro source tokens
    rw [tokenize, Cursor.ofSource_eq_between]
    exact ⟨lexed_of_scan, scan_of_lexed⟩
  refine ⟨?_, ?_, ?_⟩
  · intro front pieces gap writable spaced
    obtain ⟨tokens, lexed, same⟩ := lexed_written file front writable spaced
    refine ⟨tokens, (reads _ _).mpr ?_, same⟩
    rw [String.toList_ofList]
    exact lexed.behind_gap gap
  · intro source tokens read
    exact ((reads source tokens).mp read).writable
  · intro source source' tokens read respaced
    obtain ⟨first, second, lexed, lexed', same⟩ := respaced.lexed file [] []
    have again := (reads source first).mpr lexed
    obtain rfl : tokens = first := Except.ok.inj (read.symm.trans again)
    exact ⟨second, (reads source' second).mpr lexed', same⟩

theorem names_and_comments_spaced :
    ∃ tokens again,
      tokenize .default "a.xo" "\tf /***/\r//c" = .ok tokens ∧
      tokens.map Token.content = [(.name, "f"), (.commentBlock, "*"), (.comment, "c")] ∧
      Writable .default (tokens.map Token.content) ∧
      tokenize .default "a.xo" "f  /***/ //c" = .ok again ∧
      again.map Token.content = tokens.map Token.content := by
  obtain ⟨reads, gives, respaces⟩ := tokenize_spaced .default "a.xo"
  have name : TextFits .default .name ['f'] := ⟨'f', [], rfl, by decide, by simp⟩
  have block : TextFits .default .commentBlock ['*'] := .char (by simp [StartsMark]) .empty
  have comment : TextFits .default .comment ['c'] := by simp [TextFits]
  have writable : Writable .default [(.name, "f"), (.commentBlock, "*"), (.comment, "c")] :=
    ⟨by simpa using ⟨name, block, comment⟩, by simp⟩
  let pieces : List ((TokenKind × String) × List Char) :=
    [((.name, "f"), [' ']), ((.commentBlock, "*"), ['\r']), ((.comment, "c"), [])]
  have spaced : Spaced pieces := by simp [pieces, Spaced, Gap]
  have nothing : Gap [] := by simp [Gap]
  have blank : Gap [' '] := by simp [Gap]
  have blanks : Gap [' ', ' '] := by simp [Gap]
  have tab : Gap ['\t'] := by simp [Gap]
  have ret : Gap ['\r'] := by simp [Gap]
  obtain ⟨tokens, read, same⟩ := reads ['\t'] pieces tab writable spaced
  have last : Spelled .default .comment ['c'] ['/', '/', 'c'] [] :=
    .comment (by decide) (stopsAt_nil _)
  have middle : Spelled .default .commentBlock ['*'] ['/', '*', '*', '*', '/']
      ['\r', '/', '/', 'c'] := .commentBlock block
  have first : Spelled .default .name ['f'] ['f']
      [' ', '/', '*', '*', '*', '/', '\r', '/', '/', 'c'] :=
    .name (by decide) (by simp) (stopsAt_cons (by decide) _)
  have respaced : Respaced .default "\tf /***/\r//c".toList "f  /***/ //c".toList :=
    .token tab nothing first ⟨' ', _, rfl, rfl⟩ (.token blank blanks middle ⟨' ', _, rfl, rfl⟩
      (.token ret blank last (stopsAt_nil _) (.done nothing nothing)))
  obtain ⟨again, read', same'⟩ := respaces _ _ tokens read respaced
  exact ⟨tokens, again, read, same, gives _ tokens read, read', same'⟩

end XoLang
