import XoLang.Proofs.LexicalFaults
import XoLang.Proofs.Shape

/-!
# What compiling can report

Compiling gives a text or one report about the source, at a place of the file that was named. It
fails in no other way: readers never pass the end of what they read, and what they give can be
rendered.
-/

namespace XoLang

/-! Readers of characters stay inside the text. -/

/-- How many characters a lexeme takes, also when it is none. -/
def Lexeme.size : Lexeme → Nat
  | .gap => 1
  | .token _ _ size => size
  | .failed _ size => size

section Characters

variable {delimiter : Delimiter} {c : Char} {cs : List Char} {fault : LexFault} {size : Nat}

theorem failed_in_range (h : lexeme delimiter c cs = .failed fault size) :
    fault ≠ .pastEnd ∧ size ≤ (c :: cs).length := by
  constructor
  · rintro rfl
    exact faulty_of_lexeme h
  · rcases lexeme_failed_size h with ⟨-, size⟩ | ⟨-, size⟩ <;> omega

/-- No lexeme is longer than the text it starts. -/
theorem lexeme_size_le (delimiter : Delimiter) (c : Char) (cs : List Char) :
    (lexeme delimiter c cs).size ≤ (c :: cs).length := by
  cases read : lexeme delimiter c cs with
  | gap => simp [Lexeme.size]
  | token kind text size =>
    obtain ⟨raw, after, split, -, rfl, -⟩ := startsSpelled_of_lexeme read
    rw [split, List.length_append, Lexeme.size]
    omega
  | failed fault size => exact (failed_in_range read).2

theorem scan_error {file : String} {before rest : List Char} {e : LexError}
    (h : ((Cursor.between before rest).scan delimiter file).result = .error e) :
    e.fault ≠ .pastEnd ∧ e.location.file = file := by
  induction rest using lexemes_induction delimiter generalizing before with
  | nil =>
    rw [Cursor.scan_end] at h
    cases h
  | gap c cs blank ih =>
    rw [Cursor.scan_gap (lexeme_eq_gap_iff.mpr blank)] at h
    exact ih h
  | token kind text raw after spelled ih =>
    rw [scan_of_spelled spelled] at h
    cases rest : ((Cursor.between (before ++ raw) after).scan delimiter file).result with
    | ok tokens => simp [Scan.add, rest, Except.map] at h
    | error e' =>
      simp only [Scan.add, rest, Except.map, Except.error.injEq] at h
      subst h
      exact ih rest
  | failed c cs fault size read =>
    rw [Cursor.scan_failed read] at h
    cases h
    exact ⟨(failed_in_range read).1, rfl⟩

end Characters

/-! Readers of tokens stay inside the list. -/

/-- How many tokens were taken, also when reading failed. -/
def Outcome.taken {α : Type} : Outcome α → Nat
  | .read _ taken => taken
  | .failed _ taken => taken

theorem Outcome.taken_after {α β : Type} (n : Nat) (f : α → β) (outcome : Outcome α) :
    (outcome.after n f).taken = n + outcome.taken := by
  cases outcome <;> rfl

theorem declaration_taken_le (word : Token) (tokens : List Token) :
    (declaration word tokens).taken ≤ tokens.length := by
  rw [declaration.eq_def]
  cases tokens with
  | nil => exact Nat.le_refl 0
  | cons name ts =>
    cases ts with
    | nil =>
      simp only
      split_ifs <;> simp [Outcome.taken]
    | cons equals rest =>
      have length := length_restOfLine_le rest
      simp only [List.length_cons]
      split_ifs
      · simp only [Outcome.taken]
        omega
      · -- The whole line counts as taken, whether its items can be read or not.
        cases sequence .assignment (restOfLine rest) <;> simp only [Outcome.taken] <;> omega
      · simp only [Outcome.taken]
        omega
      · simp only [Outcome.taken]
        omega

theorem item_taken_le (context : Context) (tokens : List Token)
    (shorter : ∀ callee (rest : List Token), rest.length < tokens.length →
      (arguments callee rest).taken ≤ rest.length) :
    (item context tokens).taken ≤ tokens.length := by
  rw [item.eq_def]
  cases tokens with
  | nil => exact Nat.le_refl 0
  | cons t ts =>
    cases kind : t.kind <;> simp only [kind]
    case name =>
      split_ifs
      · simp [Outcome.taken]
      · have body := declaration_taken_le t ts
        simp only [Outcome.taken_after, List.length_cons]
        omega
      · simp [Outcome.taken]
      · cases ts with
        | nil => simp [Outcome.taken]
        | cons paren rest =>
          have inside := shorter t rest (by simp only [List.length_cons]; omega)
          simp only
          split_ifs
          · simp only [Outcome.taken_after, List.length_cons]
            omega
          · simp [Outcome.taken]
    -- Every other kind takes one token or none.
    all_goals cases context <;> simp [Outcome.taken]

/-- What an item leaves and what is taken of that. -/
theorem taken_of_rest {t : Token} {ts : List Token} {taken more : Nat}
    (first : taken ≤ (t :: ts).length) (rest : more ≤ (ts.drop (taken - 1)).length) :
    taken + more ≤ (t :: ts).length := by
  simp only [List.length_drop, List.length_cons] at first rest ⊢
  omega

theorem arguments_taken_le (callee : Token) (tokens : List Token) :
    (arguments callee tokens).taken ≤ tokens.length := by
  induction size : tokens.length using Nat.strong_induction_on generalizing callee tokens with
  | _ n ih =>
    subst size
    have shorter : ∀ callee (rest : List Token), rest.length < tokens.length →
        (arguments callee rest).taken ≤ rest.length :=
      fun callee rest less => ih _ less callee rest rfl
    have first := item_taken_le .arguments tokens shorter
    rw [arguments.eq_def]
    cases tokens with
    | nil => exact Nat.le_refl 0
    | cons t ts =>
      simp only
      split_ifs
      · simp [Outcome.taken]
      · cases read : item .arguments (t :: ts) with
        | failed fault taken => simpa [read, Outcome.taken] using first
        | read node taken =>
          rw [read] at first
          have less : (ts.drop (taken - 1)).length < (t :: ts).length := by
            simp only [List.length_drop, List.length_cons]
            omega
          simp only [Outcome.taken_after]
          exact taken_of_rest first (shorter callee _ less)

theorem sequence_taken_le (context : Context) (tokens : List Token) :
    (sequence context tokens).taken ≤ tokens.length := by
  induction size : tokens.length using Nat.strong_induction_on generalizing tokens with
  | _ n ih =>
    subst size
    have first := item_taken_le context tokens fun callee rest _ =>
      arguments_taken_le callee rest
    rw [sequence.eq_def]
    cases tokens with
    | nil => exact Nat.le_refl 0
    | cons t ts =>
      cases read : item context (t :: ts) with
      | failed fault taken => simpa [read, Outcome.taken] using first
      | read node taken =>
        rw [read] at first
        have less : (ts.drop (taken - 1)).length < (t :: ts).length := by
          simp only [List.length_drop, List.length_cons]
          omega
        simp only [Outcome.taken_after, read]
        exact taken_of_rest first (ih _ less _ rfl)

/-! Reports carry the name of the file. -/

section Files

variable {file : String} {tokens : List Token}

theorem Lexed.all_in_file {delimiter : Delimiter} {before rest : List Char}
    (h : Lexed delimiter file before rest tokens) : ∀ t ∈ tokens, t.location.file = file := by
  induction h with
  | done => simp
  | token _ _ _ ih => exact List.forall_mem_cons.mpr ⟨rfl, ih⟩

theorem endLocation_file (h : ∀ t ∈ tokens, t.location.file = file) :
    (endLocation file tokens).file = file := by
  rw [endLocation]
  split
  · rename_i last isLast
    exact h last (List.mem_of_getLast? isLast)
  · rfl

theorem ParseFault.token?_relocate (f : Location → Location) (fault : ParseFault) :
    (fault.relocate f).token? = fault.token?.map (·.relocate f) := by
  cases fault <;> rfl

/-- The token at fault is in the file of the tokens: to write the name of the file into all places
changes neither the tokens nor, therefore, the fault. -/
theorem fault_file {context : Context} {fault : ParseFault} {taken : Nat}
    (h : ∀ t ∈ tokens, t.location.file = file)
    (failed : sequence context tokens = .failed fault taken) :
    ∀ t ∈ fault.token?, t.location.file = file := by
  have unmoved : tokens.map (·.relocate fun l => { l with file := file }) = tokens := by
    refine (List.map_congr_left fun t mem => ?_).trans (List.map_id tokens)
    have same := h t mem
    obtain ⟨kind, text, line, column, name⟩ := t
    subst same
    rfl
  have moved := (read_relocate (fun l => { l with file := file }) tokens).2 context
  rw [unmoved, failed] at moved
  obtain ⟨same, -⟩ := Outcome.failed.inj moved
  intro t found
  have again := ParseFault.token?_relocate (fun l => { l with file := file }) fault
  rw [← same, Option.mem_def.mp found] at again
  have fixed : t = t.relocate fun l => { l with file := file } := Option.some.inj again
  rw [fixed]

theorem ParseError.diagnostic_location (e : ParseError) :
    e.diagnostic.location = some ((e.fault.token?.map (·.location)).getD e.ending) := by
  obtain ⟨fault, ending⟩ := e
  cases fault <;> rfl

theorem parseTokens_error_file {e : ParseError} (h : ∀ t ∈ tokens, t.location.file = file)
    (failed : parseTokens file tokens = .error e) :
    ∃ place, e.diagnostic.location = some place ∧ place.file = file := by
  rw [parseTokens] at failed
  split at failed
  · cases failed
  rename_i fault taken read
  cases failed
  refine ⟨_, ParseError.diagnostic_location _, ?_⟩
  cases found : fault.token? with
  | none => exact endLocation_file h
  | some t => exact fault_file h read t found

end Files

/-- An error of the source: a fault in its characters, other than reading past their end, or a
fault in its tokens, with one report at a place of the file. -/
structure CompileError.IsReport (file : String) (e : CompileError) : Prop where
  cause : (∃ error, e = .lexical error ∧ error.fault ≠ .pastEnd) ∨ ∃ error, e = .syntactic error
  place : ∃ place, e.diagnostic.location = some place ∧ place.file = file

theorem isReport_of_compile {delimiter : Delimiter} {file source : String} {e : CompileError}
    (h : compile delimiter file source = .error e) : e.IsReport file := by
  rw [compile_eq_map, parse] at h
  split at h
  · rename_i error scanned
    rw [tokenize, Cursor.ofSource_eq_between] at scanned
    cases h
    obtain ⟨inside, same⟩ := scan_error scanned
    exact ⟨Or.inl ⟨error, rfl, inside⟩, error.location, rfl, same⟩
  rename_i tokens scanned
  rw [tokenize, Cursor.ofSource_eq_between] at scanned
  split at h
  · rename_i error failed
    cases h
    exact ⟨Or.inr ⟨error, rfl⟩, parseTokens_error_file (lexed_of_scan scanned).all_in_file failed⟩
  · cases h

theorem emit_of_parseTokens {file : String} {tokens : List Token} {tree : Tree}
    (h : parseTokens file tokens = .ok tree) :
    JavaScript.emit tree = .ok (JavaScript.render tree) := by
  obtain ⟨body, rfl, derived⟩ := parseTokens_eq_ok_iff.mp h
  have supported : JavaScript.unsupported? (.program body (some (.start file))) = none :=
    derived.renders
  rw [JavaScript.emit, supported]

/-- Reading gives exactly the programs of the shape, up to places, and compiling fails only with a
report on the source. What is read has a rendering. Neither the readers of characters nor those of
tokens take more than there is. -/
theorem parseTokens_image (file : String) :
    (∀ tokens tree, parseTokens file tokens = .ok tree →
      tree.IsProgram ∧ JavaScript.emit tree = .ok (JavaScript.render tree)) ∧
    (∀ tree : Tree, tree.IsProgram →
      ∃ tokens again, parseTokens file tokens = .ok again ∧ again.alike tree = true) ∧
    (∀ delimiter source, (∃ code, compile delimiter file source = .ok code) ∨
      ∃ e, compile delimiter file source = .error e ∧ e.IsReport file) ∧
    (∀ delimiter c cs, (lexeme delimiter c cs).size ≤ (c :: cs).length) ∧
    ∀ context callee tokens, (item context tokens).taken ≤ tokens.length ∧
      (arguments callee tokens).taken ≤ tokens.length ∧
      (sequence context tokens).taken ≤ tokens.length := by
  refine ⟨?_, ?_, ?_, lexeme_size_le, ?_⟩
  · intro tokens tree h
    exact ⟨Tree.isProgram_of_parseTokens h, emit_of_parseTokens h⟩
  · intro tree h
    exact ⟨tree.words, h.parseTokens_words file⟩
  · intro delimiter source
    cases h : compile delimiter file source with
    | ok code => exact Or.inl ⟨code, rfl⟩
    | error e => exact Or.inr ⟨e, rfl, isReport_of_compile h⟩
  · intro context callee tokens
    have inside := fun callee (rest : List Token) (_ : rest.length < tokens.length) =>
      arguments_taken_le callee rest
    exact ⟨item_taken_le context tokens inside, arguments_taken_le callee tokens,
      sequence_taken_le context tokens⟩

theorem image_of_call_and_comment :
    Tree.IsProgram (.program [.call "f" [] (some nowhere)] (some (.start "a.xo"))) ∧
    ∃ tokens again, parseTokens "a.xo" tokens = .ok again ∧
      again.alike (.program [.assignment "x" [.leaf .comment "c" none] none, .newline none] none) =
        true := by
  have called : Items .statement [word .name "f", word .parenOpen "(", word .parenClose ")"]
      [.call "f" [] (some nowhere)] :=
    .call ⟨rfl, by decide⟩ rfl .empty rfl .empty
  have parsed : parseTokens "a.xo" [word .name "f", word .parenOpen "(", word .parenClose ")"] =
      .ok (.program [.call "f" [] (some nowhere)] (some (.start "a.xo"))) :=
    parseTokens_eq_ok_iff.mpr ⟨_, rfl, called⟩
  have inside : ∀ tree ∈ [Tree.leaf .comment "c" none], Shaped .assignment tree := by
    simpa using Shaped.comment (by simp)
  have nodes : ∀ node ∈ [Tree.assignment "x" [.leaf .comment "c" none] none, .newline none],
      Shaped .statement node := by
    simpa using ⟨Shaped.assignment (by decide) inside, Shaped.newline⟩
  have lines : Tree.AssignmentsEnd
      [Tree.assignment "x" [.leaf .comment "c" none] none, .newline none] := by
    simp [Tree.AssignmentsEnd, JavaScript.isNewline]
  exact ⟨((parseTokens_image "a.xo").1 _ _ parsed).1,
    (parseTokens_image "a.xo").2.1 _ (.program nodes lines)⟩

end XoLang
