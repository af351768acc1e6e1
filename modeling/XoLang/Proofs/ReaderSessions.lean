import XoLang.Proofs.Calls
import XoLang.Proofs.Reports
import XoLang.Proofs.SyntaxFaults
import XoLang.Tree.Session

/-!
# Sessions with a reader of tokens

However a reader is driven, and whether a step fails or not, it stays inside its tokens and never
goes back. An item that is read takes at least one token, and reading all items takes all of them.
An item that fails takes none exactly when its first token is refused; a declaration whose body
fails takes the whole line.
-/

namespace XoLang

/-- The answers of steps that failed. -/
def ReaderAnswer.isFailure : ReaderAnswer → Bool
  | .pastEnd | .failed _ => true
  | _ => false

/-- The steps that take one token and nothing else. -/
def ReaderStep.isSingle : ReaderStep → Bool
  | .advance | .expect _ _ => true
  | _ => false

/-- The steps that read all that is left. -/
def ReaderStep.isWhole : ReaderStep → Bool
  | .sequence _ | .program => true
  | _ => false

/-- What is said of every call in a session over some tokens. -/
structure ReaderCall (file : String) (tokens : List Token)
    (call : Call TokenReader ReaderStep ReaderAnswer) : Prop where
  inside : call.after.pos ≤ tokens.length
  forward : call.before.pos ≤ call.after.pos
  item : ∀ context, call.step = .item context → call.answer.isFailure = false →
    call.before.pos < call.after.pos
  whole : call.step.isWhole = true → call.answer.isFailure = false →
    call.after.pos = tokens.length
  single : call.step.isSingle = true → call.answer.isFailure = true →
    call.after.pos = call.before.pos
  /-- An item stays where it is exactly when its first token is refused. -/
  refused : ∀ context fault, call.step = .item context →
    (Refused context (tokens.drop call.before.pos) fault ↔
      call.answer = .failed ⟨fault, endLocation file tokens⟩ ∧
        call.after.pos = call.before.pos)
  /-- A declaration that fails behind its equals sign goes to the end of its line. -/
  body : ∀ word name equals rest e, call.step = .item .statement →
    tokens.drop call.before.pos = word :: name :: equals :: rest →
    (word.kind = .name ∧ word.text = "let") → Naming name → equals.kind = .equals →
    call.answer = .failed e →
      ∃ line later, rest = line ++ later ∧ (∀ t ∈ line, t.kind ≠ .newline) ∧ EndsLine later ∧
        call.after.pos = call.before.pos + 3 + line.length

/-! How many tokens are taken. -/

section Taken

variable {context : Context} {tokens : List Token}

/-- Only a token that is refused is not taken. -/
theorem refused_of_taken_eq_zero (h : (item context tokens).taken = 0) :
    ∃ fault, Refused context tokens fault := by
  rw [item.eq_def] at h
  cases tokens with
  | nil => exact ⟨_, .nothing⟩
  | cons t ts =>
    cases kind : t.kind <;> simp only [kind] at h
    case name =>
      split_ifs at h with boolean keyword inStatement
      · cases h
      · rw [Outcome.taken_after] at h
        omega
      · exact ⟨_, .nested ⟨kind, keyword⟩ inStatement⟩
      · have naming : Naming t := by
          refine ⟨kind, ?_⟩
          rw [← isReserved_iff, isReserved]
          simp [keyword, boolean]
        cases ts with
        | nil => exact ⟨_, .notCalled naming (stopsAt_nil _)⟩
        | cons paren rest =>
          simp only at h
          split_ifs at h with opens
          · rw [Outcome.taken_after] at h
            omega
          · exact ⟨_, .notCalled naming (stopsAt_cons (by simp [opens]) rest)⟩
    case comment | commentBlock =>
      split_ifs at h with inArguments
      · subst inArguments
        exact ⟨_, .comment (by simp [kind])⟩
      · cases h
    case newline =>
      split_ifs at h
      · cases h
      · cases h
    case comma | number | string => cases h
    case equals | parenOpen | parenClose | braceOpen | braceClose =>
      exact ⟨_, .unexpected (by simp [kind])⟩

theorem item_eq_failed_zero_iff {fault : ParseFault} :
    item context tokens = .failed fault 0 ↔ Refused context tokens fault := by
  constructor
  · intro failed
    obtain ⟨other, refused⟩ : ∃ other, Refused context tokens other := by
      apply refused_of_taken_eq_zero
      rw [failed, Outcome.taken]
    have same := refused.item_failed
    rw [failed] at same
    cases same
    exact refused
  · intro refused
    exact refused.item_failed

/-- An item that is read takes a token. -/
theorem taken_pos_of_item {node : Option Tree} {taken : Nat}
    (read : item context tokens = .read node taken) : 0 < taken := by
  apply Nat.pos_of_ne_zero
  rintro rfl
  obtain ⟨fault, refused⟩ : ∃ fault, Refused context tokens fault := by
    apply refused_of_taken_eq_zero
    rw [read, Outcome.taken]
  rw [refused.item_failed] at read
  cases read

theorem item_taken_le_length (context : Context) (tokens : List Token) :
    (item context tokens).taken ≤ tokens.length :=
  item_taken_le context tokens fun callee rest _ => arguments_taken_le callee rest

/-- Reading all items takes all tokens, in every context. -/
theorem sequence_read_taken {nodes : List Tree} {taken : Nat}
    (read : sequence context tokens = .read nodes taken) : taken = tokens.length := by
  induction size : tokens.length using Nat.strong_induction_on generalizing tokens nodes taken with
  | _ n ih =>
    subst size
    rw [sequence.eq_def] at read
    cases tokens with
    | nil =>
      cases read
      rfl
    | cons t ts =>
      simp only at read
      cases first : item context (t :: ts) with
      | failed fault used =>
        rw [first] at read
        cases read
      | read node used =>
        rw [first] at read
        obtain ⟨others, more, rest, -, rfl⟩ := Outcome.after_eq_read_iff.mp read
        have positive := taken_pos_of_item first
        have inside := item_taken_le_length context (t :: ts)
        rw [first, Outcome.taken, List.length_cons] at inside
        have less : (ts.drop (used - 1)).length < (t :: ts).length := by
          rw [List.length_drop, List.length_cons]
          omega
        have all := ih _ less rest rfl
        rw [List.length_drop] at all
        rw [List.length_cons]
        omega

/-- Behind its equals sign a declaration takes the rest of the line, whatever it is. -/
theorem declaration_taken {word name equals : Token} (rest : List Token) (naming : Naming name)
    (binds : equals.kind = .equals) :
    (declaration word (name :: equals :: rest)).taken = 2 + (restOfLine rest).length := by
  rw [declaration.eq_def]
  simp only [if_pos naming.1, if_neg (not_isReserved naming), if_pos binds]
  cases sequence .assignment (restOfLine rest) <;> rfl

end Taken

/-! Calls. -/

namespace TokenReader

/-- The tokens and the name of the file stay. -/
theorem tokens_perform (reader : TokenReader) (step : ReaderStep) :
    (reader.perform step).2.tokens = reader.tokens ∧
      (reader.perform step).2.file = reader.file := by
  have kept : ∀ {α : Type} (answer : α → ReaderAnswer) (outcome : Outcome α),
      (reader.take answer outcome).2.tokens = reader.tokens ∧
        (reader.take answer outcome).2.file = reader.file := by
    intro α answer outcome
    cases outcome <;> exact ⟨rfl, rfl⟩
  cases step with
  | peek | lookAt | atEnd | endLocation => exact ⟨rfl, rfl⟩
  | advance =>
    rw [perform]
    split <;> exact ⟨rfl, rfl⟩
  | expect | item | sequence | program => exact kept _ _

theorem pos_take {α : Type} (reader : TokenReader) (answer : α → ReaderAnswer)
    (outcome : Outcome α) : (reader.take answer outcome).2.pos = reader.pos + outcome.taken := by
  cases outcome <;> rfl

section Steps

variable {reader : TokenReader}

theorem pos_add_le (inside : reader.pos ≤ reader.tokens.length) {taken : Nat}
    (le : taken ≤ reader.rest.length) : reader.pos + taken ≤ reader.tokens.length := by
  rw [rest, List.length_drop] at le
  omega

/-- A step that reads no item keeps its place when it stays inside and fails without a move. -/
theorem readerCall_of_plain {step : ReaderStep} {answer : ReaderAnswer} {after : TokenReader}
    (noItem : ∀ context, step ≠ .item context) (notWhole : step.isWhole = false)
    (inside : after.pos ≤ reader.tokens.length) (forward : reader.pos ≤ after.pos)
    (stays : answer.isFailure = true → after.pos = reader.pos) :
    ReaderCall reader.file reader.tokens ⟨reader, step, answer, after⟩ where
  inside := inside
  forward := forward
  item context isItem := absurd isItem (noItem context)
  whole isWhole := by simp [notWhole] at isWhole
  single _ failure := stays failure
  refused context _ isItem := absurd isItem (noItem context)
  body _ _ _ _ _ isItem := absurd isItem (noItem .statement)

theorem readerCall_advance (inside : reader.pos ≤ reader.tokens.length) :
    ReaderCall reader.file reader.tokens (.of perform reader .advance) := by
  rw [Call.of, perform]
  split
  · exact readerCall_of_plain (by simp) rfl inside (Nat.le_refl _) (fun _ => rfl)
  · rename_i t ts left
    have taken : 1 ≤ reader.rest.length := by
      rw [left, List.length_cons]
      omega
    exact readerCall_of_plain (by simp) rfl (pos_add_le inside taken) (Nat.le_add_right _ _)
      (by simp [ReaderAnswer.isFailure])

theorem readerCall_expect (inside : reader.pos ≤ reader.tokens.length) (kind : TokenKind)
    (what : String) :
    ReaderCall reader.file reader.tokens (.of perform reader (.expect kind what)) := by
  rw [Call.of, perform]
  cases left : reader.rest with
  | nil => exact readerCall_of_plain (by simp) rfl inside (Nat.le_refl _) (fun _ => rfl)
  | cons t ts =>
    have taken : 1 ≤ reader.rest.length := by
      rw [left, List.length_cons]
      omega
    rw [XoLang.expect]
    split
    · exact readerCall_of_plain (by simp) rfl (pos_add_le inside taken) (Nat.le_add_right _ _)
        (by simp [take, ReaderAnswer.isFailure])
    · exact readerCall_of_plain (by simp) rfl inside (Nat.le_refl _) (fun _ => rfl)

/-- Where a declaration stops that fails in its body. -/
theorem line_of_body_failed {word name equals : Token} {rest : List Token}
    (split : reader.rest = word :: name :: equals :: rest)
    (keyword : word.kind = .name ∧ word.text = "let") (naming : Naming name)
    (binds : equals.kind = .equals) :
    ∃ line later, rest = line ++ later ∧ (∀ t ∈ line, t.kind ≠ .newline) ∧ EndsLine later ∧
      (XoLang.item .statement reader.rest).taken = 3 + line.length := by
  obtain ⟨later, lines, oneLine, ends⟩ := exists_takeWhile_append (·.kind != .newline) rest
  refine ⟨restOfLine rest, later, lines, ?_, ends, ?_⟩
  · intro t mem
    simpa using oneLine t mem
  · rw [split, item_of_keyword keyword, Outcome.taken_after, declaration_taken rest naming binds]
    omega

/-- An item that is read moves the reader. -/
theorem pos_lt_of_item {context : Context}
    (success : (reader.perform (.item context)).1.isFailure = false) :
    reader.pos < (reader.perform (.item context)).2.pos := by
  rw [perform] at success ⊢
  rw [pos_take]
  cases found : XoLang.item context reader.rest with
  | read node taken =>
    have positive := taken_pos_of_item found
    rw [Outcome.taken]
    omega
  | failed fault taken =>
    rw [found, take] at success
    cases success

/-- A refused token is one on which the reader fails and stays. -/
theorem refused_iff_stays {context : Context} {fault : ParseFault} :
    Refused context reader.rest fault ↔
      (reader.perform (.item context)).1 =
          .failed ⟨fault, XoLang.endLocation reader.file reader.tokens⟩ ∧
        (reader.perform (.item context)).2.pos = reader.pos := by
  rw [← item_eq_failed_zero_iff, perform, pos_take]
  cases XoLang.item context reader.rest with
  | read node taken => simp [take]
  | failed other taken => simp [take, Outcome.taken]

theorem readerCall_item (inside : reader.pos ≤ reader.tokens.length) (context : Context) :
    ReaderCall reader.file reader.tokens (.of perform reader (.item context)) := by
  have within := item_taken_le_length context reader.rest
  have moved : (reader.perform (.item context)).2.pos =
      reader.pos + (XoLang.item context reader.rest).taken := pos_take _ _ _
  rw [Call.of]
  constructor
  · rw [moved]
    exact pos_add_le inside within
  · rw [moved]
    exact Nat.le_add_right _ _
  · rintro _ ⟨⟩ success
    exact pos_lt_of_item success
  · intro isWhole
    cases isWhole
  · intro isSingle
    cases isSingle
  · rintro _ fault ⟨⟩
    exact refused_iff_stays
  · rintro word name equals rest e ⟨⟩ split keyword naming binds failed
    obtain ⟨line, later, lines, oneLine, ends, taken⟩ :=
      line_of_body_failed split keyword naming binds
    refine ⟨line, later, lines, oneLine, ends, ?_⟩
    rw [moved, taken, Nat.add_assoc]

theorem readerCall_whole (inside : reader.pos ≤ reader.tokens.length) {step : ReaderStep}
    {context : Context} {answer : List Tree → ReaderAnswer}
    (noItem : ∀ context, step ≠ .item context) (notSingle : step.isSingle = false)
    (performs : reader.perform step =
      reader.take answer (XoLang.sequence context reader.rest)) :
    ReaderCall reader.file reader.tokens (.of perform reader step) := by
  have within := sequence_taken_le context reader.rest
  have moved : (reader.perform step).2.pos =
      reader.pos + (XoLang.sequence context reader.rest).taken := by
    rw [performs, pos_take]
  rw [Call.of]
  constructor
  · rw [moved]
    exact pos_add_le inside within
  · rw [moved]
    exact Nat.le_add_right _ _
  · intro other isItem
    exact absurd isItem (noItem other)
  · intro _ success
    simp only at success ⊢
    rw [moved]
    cases found : XoLang.sequence context reader.rest with
    | read nodes taken =>
      have all := sequence_read_taken found
      rw [rest, List.length_drop] at all
      rw [Outcome.taken]
      omega
    | failed fault taken =>
      rw [performs, found, take] at success
      cases success
  · intro single
    simp [notSingle] at single
  · intro other _ isItem
    exact absurd isItem (noItem other)
  · intro _ _ _ _ _ isItem
    exact absurd isItem (noItem .statement)

/-- What one step does, wherever the reader stands. -/
theorem readerCall_of_inside (inside : reader.pos ≤ reader.tokens.length) (step : ReaderStep) :
    ReaderCall reader.file reader.tokens (.of perform reader step) := by
  cases step with
  | peek | lookAt | atEnd | endLocation =>
    exact readerCall_of_plain (by simp) rfl inside (Nat.le_refl _) (fun _ => rfl)
  | advance => exact readerCall_advance inside
  | expect kind what => exact readerCall_expect inside kind what
  | item context => exact readerCall_item inside context
  | sequence context => exact readerCall_whole inside (by simp) rfl rfl
  | program => exact readerCall_whole inside (by simp) rfl rfl

end Steps

end TokenReader

/-- A reader that stands somewhere in some tokens of a file. -/
structure TokenReader.Within (file : String) (tokens : List Token) (reader : TokenReader) :
    Prop where
  tokens_eq : reader.tokens = tokens
  file_eq : reader.file = file
  inside : reader.pos ≤ tokens.length

theorem TokenReader.Within.readerCall {file : String} {tokens : List Token} {reader : TokenReader}
    (h : reader.Within file tokens) (step : ReaderStep) :
    ReaderCall file tokens (.of TokenReader.perform reader step) := by
  obtain ⟨rfl, rfl, inside⟩ := h
  exact readerCall_of_inside inside step

theorem TokenReader.Within.perform {file : String} {tokens : List Token} {reader : TokenReader}
    (h : reader.Within file tokens) (step : ReaderStep) :
    (reader.perform step).2.Within file tokens := by
  obtain ⟨sameTokens, sameFile⟩ := reader.tokens_perform step
  exact ⟨sameTokens.trans h.tokens_eq, sameFile.trans h.file_eq, (h.readerCall step).inside⟩

/-- In every session a reader keeps its place: each call leaves it inside the tokens and not further
back than before, and what an item or all items take is known. -/
theorem reader_session_keeps_place (file : String) (tokens : List Token) (steps : List ReaderStep) :
    (TokenReader.start file tokens).performAll steps =
      (calls TokenReader.perform (.start file tokens) steps).map
        (fun call => (call.answer, call.after)) ∧
    ∀ call ∈ calls TokenReader.perform (.start file tokens) steps,
      ReaderCall file tokens call := by
  constructor
  · exact (map_calls (fun _ => rfl) (fun _ _ _ => rfl) _ steps).symm
  · have start : (TokenReader.start file tokens).Within file tokens := ⟨rfl, rfl, Nat.zero_le _⟩
    exact forall_mem_calls (fun _ step within => within.perform step)
      (fun _ step within => within.readerCall step) start steps

/-- A declaration with a parenthesis in its body that nothing opens. -/
def unopenedBody : List Token :=
  [tokenAt .name "let", tokenAt .name "x", tokenAt .equals "=", tokenAt .parenClose ")",
   tokenAt .newline "\n"]

theorem unopened_body_session :
    (TokenReader.start "lines.xo" unopenedBody).performAll [.item .statement] =
      [(.failed ⟨.unexpected (tokenAt .parenClose ")"), ⟨1, 1, "lines.xo"⟩⟩,
        ⟨unopenedBody, "lines.xo", 4⟩)] ∧
    ReaderCall "lines.xo" unopenedBody
      ⟨⟨unopenedBody, "lines.xo", 0⟩, .item .statement,
        .failed ⟨.unexpected (tokenAt .parenClose ")"), ⟨1, 1, "lines.xo"⟩⟩,
        ⟨unopenedBody, "lines.xo", 4⟩⟩ := by
  have inside : sequence .assignment [tokenAt .parenClose ")"] =
      .failed (.unexpected (tokenAt .parenClose ")")) 0 := by
    have refused : Refused .assignment [tokenAt .parenClose ")"]
        (.unexpected (tokenAt .parenClose ")")) := .unexpected (by decide)
    rw [sequence.eq_def]
    simp only [refused.item_failed]
  have read : item .statement unopenedBody = .failed (.unexpected (tokenAt .parenClose ")")) 4 :=
    item_of_body_failed ⟨rfl, rfl⟩ ⟨rfl, by decide⟩ rfl (by simp [tokenAt])
      (stopsAt_cons (by decide) []) inside
  have performed : (TokenReader.start "lines.xo" unopenedBody).perform (.item .statement) =
      (.failed ⟨.unexpected (tokenAt .parenClose ")"), ⟨1, 1, "lines.xo"⟩⟩,
        ⟨unopenedBody, "lines.xo", 4⟩) := by
    have left : (TokenReader.start "lines.xo" unopenedBody).rest = unopenedBody := rfl
    rw [TokenReader.perform, left, read]
    rfl
  obtain ⟨session, each⟩ :=
    reader_session_keeps_place "lines.xo" unopenedBody [.item .statement]
  simp only [calls, Call.of, performed, List.map_cons, List.map_nil] at session each
  exact ⟨session, each _ List.mem_cons_self⟩

end XoLang
