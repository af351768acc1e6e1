import XoLang.Proofs.Rendering

/-!
# Compiling line by line

No token of a source that can be read goes on behind a line feed that follows the source, and what
is read behind the line feed is read as if it were a source of its own, only further down. So
compiling two sources with a line feed between them is compiling each of them.
-/

namespace XoLang

/-- The place `n` lines further down. -/
def Location.down (n : Nat) (l : Location) : Location := { l with line := l.line + n }

/-- A place behind a line feed is as far down as there are line feeds before it. -/
theorem placeAfter_line (file : String) (before used : List Char) :
    placeAfter file (before ++ '\n' :: used) =
      (placeAfter file used).down (1 + before.count '\n') := by
  have column : (before ++ '\n' :: used).reverse.takeWhile (· != '\n') =
      used.reverse.takeWhile (· != '\n') := by
    rw [List.reverse_append, List.reverse_cons, List.append_assoc, List.singleton_append,
      takeWhile_append_cons_of_neg (by simp)]
  simp only [placeAfter, Location.down, column, List.count_append, List.count_cons_self,
    Location.mk.injEq, and_true]
  omega

theorem placesMove_line (file : String) (before : List Char) :
    PlacesMove (Location.down (1 + before.count '\n')) file file [] (before ++ ['\n']) := by
  intro used
  rw [List.append_assoc, List.nil_append, List.singleton_append, placeAfter_line]

section Tokens

variable {delimiter : Delimiter} {file : String} {before rest : List Char} {tokens : List Token}

theorem NumberEnds.append_line {after : List Char} (h : NumberEnds after) (more : List Char) :
    NumberEnds (after ++ '\n' :: more) := by
  have stop : StopsAt isDigit ('\n' :: more) := stopsAt_cons (by decide) more
  refine ⟨h.1.append stop, ?_⟩
  intro next split
  cases after with
  | nil => simp at split
  | cons c after =>
    obtain ⟨rfl, rfl⟩ := List.cons.inj split
    exact (h.2 after rfl).append stop

/-- A line feed behind what follows a token does not change how the token is spelled. -/
theorem Spelled.append_line {kind : TokenKind} {text raw after : List Char}
    (h : Spelled delimiter kind text raw after) (more : List Char) :
    Spelled delimiter kind text raw (after ++ '\n' :: more) := by
  cases h with
  | newline => exact .newline
  | punctuation mark => exact .punctuation mark
  | comment oneLine ends => exact .comment oneLine (ends.append (stopsAt_cons (by simp) more))
  | commentBlock nested => exact .commentBlock nested
  | string mark closed => exact .string mark closed
  | number first groups ends => exact .number first groups (ends.append_line more)
  | name first letters ends =>
    exact .name first letters (ends.append (stopsAt_cons (by decide) more))

/-- Reading passes the tokens of a source and a line feed and goes on behind it. -/
theorem scan_line (h : Lexed delimiter file before rest tokens) (more : List Char) :
    ((Cursor.between before (rest ++ '\n' :: more)).scan delimiter file).result =
      ((Cursor.between (before ++ rest ++ ['\n']) more).scan delimiter file).result.map
        (tokens ++ ⟨.newline, "\n", placeAfter file (before ++ rest)⟩ :: ·) := by
  induction h with
  | @done before w gap =>
    have lineFeed : Spelled delimiter .newline ['\n'] ['\n'] more := .newline
    rw [scan_of_gap gap, ← List.singleton_append, scan_of_spelled lineFeed]
    rfl
  | @token before w raw text rest kind tokens gap spelled _ ih =>
    have split : w ++ raw ++ rest ++ '\n' :: more = w ++ (raw ++ (rest ++ '\n' :: more)) := by simp
    have place : before ++ w ++ raw ++ rest = before ++ (w ++ raw ++ rest) := by simp
    rw [split, scan_of_gap gap, scan_of_spelled (spelled.append_line more), ← place]
    simp only [Scan.add, ih]
    generalize ((Cursor.between _ more).scan delimiter file).result = result
    cases result <;> rfl

end Tokens

section Trees

variable {tokens : List Token} {body : List Tree} {newline : Token}

/-- Behind the tokens of a program and a line end, reading goes on as at the start. -/
theorem sequence_line (h : Items .statement tokens body) (lineEnd : newline.kind = .newline)
    (more : List Token) :
    sequence .statement (tokens ++ newline :: more) =
      (sequence .statement more).after (tokens.length + 1)
        (body ++ .newline (some newline.location) :: ·) := by
  have ends : EndsLine (newline :: more) := stopsAt_cons (by simp [lineEnd]) more
  have first : sequence .statement (newline :: more) =
      (sequence .statement more).after 1 ([.newline (some newline.location)] ++ ·) :=
    sequence_of_item (List.cons_ne_nil newline []) (item_of_single (.newline lineEnd) more)
  rw [h.readsAs.sequence _ fun _ => ends, first, Outcome.after_after]
  rfl

theorem endLocation_append_relocate (file : String) {more : List Token} (nonempty : more ≠ [])
    (front : List Token) (f : Location → Location) :
    endLocation file (front ++ more.map (·.relocate f)) = f (endLocation file more) := by
  obtain ⟨last, isLast⟩ : ∃ last, more.getLast? = some last :=
    ⟨more.getLast nonempty, List.getLast?_eq_some_getLast nonempty⟩
  simp [endLocation, List.getLast?_append, isLast]

/-- The program of two lists of tokens with a line end between them, the second list moved. -/
theorem parseTokens_line (file : String) (h : Items .statement tokens body)
    (lineEnd : newline.kind = .newline) (f : Location → Location) (more : List Token) :
    (∀ others location, parseTokens file more = .ok (.program others location) →
      parseTokens file (tokens ++ newline :: more.map (·.relocate f)) =
        .ok (.program (body ++ .newline (some newline.location) :: others.map (·.relocate f))
          (some (.start file)))) ∧
    ∀ e, parseTokens file more = .error e →
      parseTokens file (tokens ++ newline :: more.map (·.relocate f)) = .error (e.relocate f) := by
  have moved := (read_relocate f more).2 .statement
  have read := sequence_line h lineEnd (more.map (·.relocate f))
  rw [moved] at read
  rw [parseTokens, parseTokens, read]
  cases alone : sequence .statement more with
  | read others taken =>
    constructor
    · rintro _ _ ⟨rfl, rfl⟩
      rfl
    · rintro e ⟨⟩
  | failed fault taken =>
    constructor
    · rintro _ _ ⟨⟩
    · rintro e ⟨rfl⟩
      have nonempty : more ≠ [] := by
        rintro rfl
        rw [sequence] at alone
        cases alone
      have ending := endLocation_append_relocate file nonempty (tokens ++ [newline]) f
      rw [List.append_assoc, List.singleton_append] at ending
      simp only [Outcome.relocate, Outcome.after, ParseError.relocate, ending]

end Trees

section Sources

variable {delimiter : Delimiter} {file first : String}

theorem tokenize_line (second : String) {tokens : List Token}
    (h : Lexed delimiter file [] first.toList tokens) :
    tokenize delimiter file (first ++ "\n" ++ second) =
      (relocateTokens (Location.down (1 + first.toList.count '\n'))
        (tokenize delimiter file second)).map
        (tokens ++ ⟨.newline, "\n", placeAfter file first.toList⟩ :: ·) := by
  have whole : (first ++ "\n" ++ second).toList = first.toList ++ '\n' :: second.toList := by
    simp
  rw [tokenize, tokenize, Cursor.ofSource_eq_between, Cursor.ofSource_eq_between, whole,
    scan_line h, ← scan_relocate delimiter (placesMove_line file first.toList)]
  rfl

/-- The tree of two sources with a line feed between them. -/
theorem parse_line (second : String) {body : List Tree} {location : Option Location}
    (h : parse delimiter file first = .ok (.program body location)) :
    (∀ others location, parse delimiter file second = .ok (.program others location) →
      parse delimiter file (first ++ "\n" ++ second) =
        .ok (.program (body ++ .newline (some (placeAfter file first.toList)) ::
          others.map (·.relocate (.down (1 + first.toList.count '\n')))) (some (.start file)))) ∧
    ∀ e, parse delimiter file second = .error e →
      parse delimiter file (first ++ "\n" ++ second) =
        .error (e.relocate (.down (1 + first.toList.count '\n'))) := by
  obtain ⟨tokens, _, lexed, derived, same⟩ := parse_eq_ok_iff.mp h
  cases same
  rw [parse, parse, tokenize_line second lexed]
  cases tokenize delimiter file second with
  | error e =>
    constructor
    · rintro _ _ ⟨⟩
    · rintro e ⟨rfl⟩
      rfl
  | ok more =>
    have lineEnd : (⟨.newline, "\n", placeAfter file first.toList⟩ : Token).kind = .newline := rfl
    obtain ⟨good, bad⟩ := parseTokens_line file derived lineEnd
      (.down (1 + first.toList.count '\n')) more
    simp only [relocateTokens, Except.map]
    cases alone : parseTokens file more with
    | error e =>
      constructor
      · rintro _ _ ⟨⟩
      · rintro e ⟨rfl⟩
        rw [bad e alone]
        rfl
    | ok tree =>
      constructor
      · rintro others location ⟨rfl⟩
        rw [good others location alone]
      · rintro e ⟨⟩

theorem ParseError.located (e : ParseError) : ∃ place, e.diagnostic.location = some place := by
  obtain ⟨fault, ending⟩ := e
  cases fault <;> exact ⟨_, rfl⟩

/-- What reading reports has a place. -/
theorem located_of_parse {e : CompileError} (h : parse delimiter file first = .error e) :
    ∃ place, e.diagnostic.location = some place := by
  rw [parse] at h
  split at h
  · cases h
    exact ⟨_, rfl⟩
  split at h
  · cases h
    exact ParseError.located _
  · cases h

end Sources

/-- Compiling goes line by line. When a first source compiles, a second one behind a line feed gives
what it gives alone: its text behind a line feed, its nodes behind a line end and further down, or
its report further down. -/
theorem compile_lines (delimiter : Delimiter) (file first second code : String)
    (compiled : compile delimiter file first = .ok code) :
    (∀ code', compile delimiter file second = .ok code' →
      compile delimiter file (first ++ "\n" ++ second) = .ok (code ++ "\n" ++ code') ∧
      ∃ body others,
        parse delimiter file first = .ok (.program body (some (.start file))) ∧
        parse delimiter file second = .ok (.program others (some (.start file))) ∧
        parse delimiter file (first ++ "\n" ++ second) =
          .ok (.program (body ++ [.newline (some (placeAfter file first.toList))] ++
            others.map (·.relocate (.down (1 + first.toList.count '\n')))) (some (.start file)))) ∧
    ∀ e, compile delimiter file second = .error e →
      ∃ e' place, compile delimiter file (first ++ "\n" ++ second) = .error e' ∧
        e.diagnostic.location = some place ∧
        e'.diagnostic = { e.diagnostic with
          location := some
            { place with line := place.line + (1 + first.toList.count '\n' : Nat) } } := by
  rw [compile_eq_map] at compiled
  cases parsed : parse delimiter file first with
  | error e =>
    rw [parsed] at compiled
    cases compiled
  | ok tree =>
    rw [parsed] at compiled
    obtain ⟨tokens, body, -, -, rfl⟩ := parse_eq_ok_iff.mp parsed
    obtain ⟨good, bad⟩ := parse_line second parsed
    cases compiled
    simp only [compile_eq_map]
    cases alone : parse delimiter file second with
    | error e =>
      refine ⟨fun code' h => (by cases h), ?_⟩
      rintro e ⟨rfl⟩
      obtain ⟨place, located⟩ := located_of_parse alone
      refine ⟨_, place, by rw [bad e alone]; rfl, located, ?_⟩
      rw [CompileError.diagnostic_relocate, Diagnostic.relocate, located]
      rfl
    | ok tree =>
      obtain ⟨tokens', others, -, -, rfl⟩ := parse_eq_ok_iff.mp alone
      refine ⟨?_, fun e h => (by cases h)⟩
      rintro code' ⟨rfl⟩
      have whole := good others _ alone
      refine ⟨?_, body, others, rfl, rfl, by simpa using whole⟩
      rw [whole, Except.map, JavaScript.render, JavaScript.renderAll_append_newline,
        JavaScript.renderAll_relocate]
      rfl

theorem compile_number_line :
    compile .default "a.xo" ("7" ++ "\n" ++ "7") = .ok "7\n7" ∧
    ∃ e, compile .default "a.xo" ("7" ++ "\n" ++ "?") = .error e ∧
      e.diagnostic =
        Diagnostic.lexical "Unexpected character '?'" (some ⟨2, 1, "a.xo"⟩) (some "?") := by
  have lexed : Lexed .default "a.xo" [] "7".toList [⟨.number, "7", ⟨1, 1, "a.xo"⟩⟩] :=
    .spelled (.number (by decide) .done ⟨stopsAt_nil _, by simp⟩) (.done (by simp [Gap]))
  have parsed := parse_eq_ok_iff.mpr ⟨_, _, lexed, .single (.number rfl) .empty, rfl⟩
  have compiled : compile .default "a.xo" "7" = .ok "7" := by
    rw [compile_eq_map, parsed]
    rfl
  have refused : compile .default "a.xo" "?" =
      .error (.lexical ⟨.unexpected '?', ⟨1, 1, "a.xo"⟩⟩) := by
    have scanned : ((Cursor.between [] ['?']).scan .default "a.xo").result =
        .error ⟨.unexpected '?', ⟨1, 1, "a.xo"⟩⟩ := by
      rw [Cursor.scan_failed rfl]
      rfl
    have tokenized : tokenize .default "a.xo" "?" =
        .error ⟨.unexpected '?', ⟨1, 1, "a.xo"⟩⟩ := scanned
    rw [compile, parse, tokenized]
  refine ⟨((compile_lines _ _ "7" "7" "7" compiled).1 "7" compiled).1, ?_⟩
  obtain ⟨e, place, failed, located, report⟩ :=
    (compile_lines _ _ "7" "?" "7" compiled).2 _ refused
  cases located
  exact ⟨e, failed, report.trans rfl⟩

end XoLang
