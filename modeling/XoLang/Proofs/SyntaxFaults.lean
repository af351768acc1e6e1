import XoLang.Proofs.Grammar

/-!
# Where reading tokens gets stuck

Reading a list of tokens fails exactly when it gets stuck at one of them. The relation `Stuck` says
where, and why: behind complete items, in the arguments of open calls or in the body of a
declaration, there stands a token that cannot go on, or the tokens end too early. It follows the
grammar and does not mention how many tokens a reader takes.
-/

namespace XoLang

/-- The first item of some tokens gets stuck by itself, at the token behind `front`. -/
inductive Blocked : Context → (front : List Token) → Token → (back : List Token) → ParseFault → Prop
  | comment {t : Token} {back : List Token} (kind : t.kind = .comment ∨ t.kind = .commentBlock) :
      Blocked .arguments [] t back (.commentInArguments t)
  | nested {context : Context} {t : Token} {back : List Token}
      (keyword : t.kind = .name ∧ t.text = "let") (inside : context ≠ .statement) :
      Blocked context [] t back (.nestedDeclaration t)
  | notCalled {context : Context} {t : Token} {back : List Token} (naming : Naming t)
      (uncalled : StopsAt (·.kind == .parenOpen) back) : Blocked context [] t back (.notCalled t)
  | unexpected {context : Context} {t : Token} {back : List Token}
      (kind : t.kind ∈ [.equals, .parenOpen, .parenClose, .braceOpen, .braceClose])
      (unopened : context = .arguments → t.kind ≠ .parenClose) :
      Blocked context [] t back (.unexpected t)
  | noVariable {word : Token} (keyword : word.kind = .name ∧ word.text = "let") :
      Blocked .statement [] word [] (.missing variableNeeded)
  | noName {word t : Token} {back : List Token} (keyword : word.kind = .name ∧ word.text = "let")
      (kind : t.kind ≠ .name) : Blocked .statement [word] t back (.mismatch variableNeeded t)
  | reserved {word t : Token} {back : List Token} (keyword : word.kind = .name ∧ word.text = "let")
      (kind : t.kind = .name) (taken : t.text ∈ reservedWords) :
      Blocked .statement [word] t back (.reservedName t)
  | noEquals {word name : Token} (keyword : word.kind = .name ∧ word.text = "let")
      (naming : Naming name) :
      Blocked .statement [word] name [] (.missing (equalsNeeded name.text))
  | otherThanEquals {word name t : Token} {back : List Token}
      (keyword : word.kind = .name ∧ word.text = "let") (naming : Naming name)
      (kind : t.kind ≠ .equals) :
      Blocked .statement [word, name] t back (.mismatch (equalsNeeded name.text) t)

/-- The first of some tokens is refused, or there is none. -/
inductive Refused : Context → List Token → ParseFault → Prop
  | nothing {context : Context} : Refused context [] .unexpectedEnd
  | comment {t : Token} {back : List Token} (kind : t.kind = .comment ∨ t.kind = .commentBlock) :
      Refused .arguments (t :: back) (.commentInArguments t)
  | nested {context : Context} {t : Token} {back : List Token}
      (keyword : t.kind = .name ∧ t.text = "let") (inside : context ≠ .statement) :
      Refused context (t :: back) (.nestedDeclaration t)
  | notCalled {context : Context} {t : Token} {back : List Token} (naming : Naming t)
      (uncalled : StopsAt (·.kind == .parenOpen) back) : Refused context (t :: back) (.notCalled t)
  | unexpected {context : Context} {t : Token} {back : List Token}
      (kind : t.kind ∈ [.equals, .parenOpen, .parenClose, .braceOpen, .braceClose]) :
      Refused context (t :: back) (.unexpected t)

/-- Reading gets stuck at the token between `front` and `back`. -/
inductive Stuck : Context → (front : List Token) → Token → (back : List Token) → ParseFault → Prop
  | here {context : Context} {front back : List Token} {t : Token} {fault : ParseFault}
      (blocked : Blocked context front t back fault) : Stuck context front t back fault
  | unclosed {context : Context} {name paren : Token} {inner : List Token} {params : List Tree}
      (naming : Naming name) (opens : paren.kind = .parenOpen)
      (inside : Items .arguments inner params) :
      Stuck context [] name (paren :: inner) (.unclosedCall name)
  | inCall {context : Context} {name paren t : Token} {front back : List Token}
      {fault : ParseFault} (naming : Naming name) (opens : paren.kind = .parenOpen)
      (inside : Stuck .arguments front t back fault) :
      Stuck context (name :: paren :: front) t back fault
  | inBody {word name equals t : Token} {front back rest : List Token} {fault : ParseFault}
      (keyword : word.kind = .name ∧ word.text = "let") (naming : Naming name)
      (binds : equals.kind = .equals) (oneLine : ∀ u ∈ front ++ t :: back, u.kind ≠ .newline)
      (ends : EndsLine rest) (inside : Stuck .assignment front t back fault) :
      Stuck .statement (word :: name :: equals :: front) t (back ++ rest) fault
  | afterSingle {context : Context} {u t : Token} {node : Option Tree} {front back : List Token}
      {fault : ParseFault} (single : Single context u node)
      (later : Stuck context front t back fault) : Stuck context (u :: front) t back fault
  | afterCall {context : Context} {name paren close t : Token} {inner front back : List Token}
      {params : List Tree} {fault : ParseFault} (naming : Naming name)
      (opens : paren.kind = .parenOpen) (inside : Items .arguments inner params)
      (closes : close.kind = .parenClose) (later : Stuck context front t back fault) :
      Stuck context (name :: paren :: (inner ++ close :: front)) t back fault
  | afterLine {word name equals newline t : Token} {line front back : List Token}
      {body : List Tree} {fault : ParseFault} (keyword : word.kind = .name ∧ word.text = "let")
      (naming : Naming name) (binds : equals.kind = .equals)
      (oneLine : ∀ u ∈ line, u.kind ≠ .newline) (inside : Items .assignment line body)
      (lineEnd : newline.kind = .newline) (later : Stuck .statement front t back fault) :
      Stuck .statement (word :: name :: equals :: (line ++ newline :: front)) t back fault

/-! Reading fails where it is stuck. -/

/-- Reading some tokens fails with a fault: all of them, or as arguments. -/
structure FailsAs (context : Context) (tokens : List Token) (fault : ParseFault) : Prop where
  sequence : ∃ taken, sequence context tokens = .failed fault taken
  arguments : context = .arguments →
    ∀ callee, ∃ taken, arguments callee tokens = .failed fault taken

theorem Outcome.after_failed {α β : Type} (n taken : Nat) (f : α → β) (fault : ParseFault) :
    (Outcome.failed fault taken : Outcome α).after n f = .failed fault (n + taken) := rfl

section Failing

variable {context : Context} {fault : ParseFault}

theorem FailsAs.of_item {t : Token} {ts : List Token} {taken : Nat}
    (failed : item context (t :: ts) = .failed fault taken)
    (inside : context = .arguments → t.kind ≠ .parenClose) : FailsAs context (t :: ts) fault where
  sequence := by
    refine ⟨taken, ?_⟩
    rw [XoLang.sequence.eq_def]
    simp only [failed]
  arguments := by
    intro inArguments callee
    subst inArguments
    refine ⟨taken, ?_⟩
    rw [XoLang.arguments.eq_def]
    simp only [if_neg (inside rfl), failed]

/-- One more item in front. -/
theorem FailsAs.append {used tokens : List Token} {node : Option Tree} (nonempty : used ≠ [])
    (notClose : ∀ t ∈ used.head?, t.kind ≠ .parenClose)
    (first : item context (used ++ tokens) = .read node used.length)
    (later : FailsAs context tokens fault) : FailsAs context (used ++ tokens) fault where
  sequence := by
    obtain ⟨taken, failed⟩ := later.sequence
    rw [sequence_of_item nonempty first, failed]
    exact ⟨_, rfl⟩
  arguments := by
    intro inArguments callee
    subst inArguments
    obtain ⟨taken, failed⟩ := later.arguments rfl callee
    rw [arguments_of_item callee nonempty notClose first, failed]
    exact ⟨_, rfl⟩

theorem not_isReserved {name : Token} (naming : Naming name) : ¬ isReserved name.text = true := by
  rw [isReserved_iff]
  exact naming.2

/-- A token that is refused is not taken. -/
theorem Refused.item_failed {tokens : List Token} (h : Refused context tokens fault) :
    item context tokens = .failed fault 0 := by
  cases h with
  | nothing => rw [item]
  | comment kind =>
    rw [item.eq_def]
    rcases kind with kind | kind <;> simp [kind]
  | nested keyword inside =>
    rw [item.eq_def]
    simp [keyword.1, keyword.2, isBooleanWord, declarationWord, inside]
  | @notCalled _ t back naming uncalled =>
    have free := not_isReserved naming
    simp only [isReserved, Bool.or_eq_true, decide_eq_true_eq, not_or] at free
    rw [item.eq_def]
    cases back with
    | nil => simp [naming.1, free]
    | cons paren rest =>
      have other : ¬ paren.kind = .parenOpen := by simpa using uncalled paren rest rfl
      simp [naming.1, free, other]
  | unexpected kind =>
    rw [item.eq_def]
    simp only [List.mem_cons, List.not_mem_nil, or_false] at kind
    rcases kind with kind | kind | kind | kind | kind <;> simp [kind]

theorem Blocked.item_failed {front back : List Token} {t : Token}
    (h : Blocked context front t back fault) :
    ∃ taken, item context (front ++ t :: back) = .failed fault taken := by
  cases h with
  | comment kind => exact ⟨0, Refused.item_failed (.comment kind)⟩
  | nested keyword inside => exact ⟨0, Refused.item_failed (.nested keyword inside)⟩
  | notCalled naming uncalled => exact ⟨0, Refused.item_failed (.notCalled naming uncalled)⟩
  | unexpected kind unopened => exact ⟨0, Refused.item_failed (.unexpected kind)⟩
  | noVariable keyword =>
    rw [List.nil_append, item_of_keyword keyword, declaration, Outcome.after_failed]
    exact ⟨_, rfl⟩
  | noName keyword kind =>
    rw [List.singleton_append, item_of_keyword keyword, declaration.eq_def]
    simp only [if_neg kind]
    exact ⟨_, rfl⟩
  | reserved keyword kind taken =>
    rw [List.singleton_append, item_of_keyword keyword, declaration.eq_def]
    simp only [if_pos kind, if_pos (isReserved_iff.mpr taken)]
    exact ⟨_, rfl⟩
  | noEquals keyword naming =>
    rw [List.singleton_append, item_of_keyword keyword, declaration.eq_def]
    simp only [if_pos naming.1, if_neg (not_isReserved naming)]
    exact ⟨_, rfl⟩
  | otherThanEquals keyword naming kind =>
    rw [List.cons_append, List.singleton_append, item_of_keyword keyword, declaration.eq_def]
    simp only [if_pos naming.1, if_neg (not_isReserved naming), if_neg kind]
    exact ⟨_, rfl⟩

theorem Blocked.not_close {front back : List Token} {t : Token}
    (h : Blocked .arguments front t back fault) : front = [] ∧ t.kind ≠ .parenClose := by
  cases h with
  | comment kind =>
    refine ⟨rfl, ?_⟩
    rcases kind with kind | kind <;> simp [kind]
  | nested keyword inside => exact ⟨rfl, by simp [keyword.1]⟩
  | notCalled naming uncalled => exact ⟨rfl, by simp [naming.1]⟩
  | unexpected kind unopened => exact ⟨rfl, unopened rfl⟩

theorem item_of_body_failed {word name equals : Token} {line rest : List Token} {taken : Nat}
    (keyword : word.kind = .name ∧ word.text = "let") (naming : Naming name)
    (binds : equals.kind = .equals) (oneLine : ∀ t ∈ line, t.kind ≠ .newline)
    (ends : EndsLine rest) (failed : sequence .assignment line = .failed fault taken) :
    item .statement (word :: name :: equals :: (line ++ rest)) =
      .failed fault (1 + (2 + line.length)) := by
  rw [item_of_keyword keyword, declaration.eq_def]
  simp only [if_pos naming.1, if_neg (not_isReserved naming), if_pos binds,
    restOfLine_append oneLine ends, failed, Outcome.after_failed]

theorem Blocked.failsAs {front back : List Token} {t : Token}
    (h : Blocked context front t back fault) : FailsAs context (front ++ t :: back) fault := by
  obtain ⟨taken, failed⟩ := h.item_failed
  cases front with
  | nil =>
    refine FailsAs.of_item failed ?_
    rintro rfl
    exact h.not_close.2
  | cons u front =>
    refine FailsAs.of_item failed ?_
    rintro rfl
    exact absurd h.not_close.1 (by simp)

/-- Where reading is stuck it fails. -/
theorem Stuck.failsAs {front back : List Token} {t : Token}
    (h : Stuck context front t back fault) : FailsAs context (front ++ t :: back) fault := by
  induction h with
  | here blocked => exact blocked.failsAs
  | @unclosed context name paren inner params naming opens inside =>
    have ended : arguments name inner = .failed (.unclosedCall name) inner.length := by
      have read := inside.readsAs.arguments rfl name []
      rw [List.append_nil, arguments, Outcome.after_failed] at read
      simpa using read
    have failed : item context (name :: paren :: inner) =
        .failed (.unclosedCall name) (2 + inner.length) := by
      rw [item_of_naming naming opens, ended, Outcome.after_failed]
    exact FailsAs.of_item failed (by simp [naming.1])
  | @inCall context name paren t front back fault naming opens _ ih =>
    obtain ⟨taken, inside⟩ := ih.arguments rfl name
    have failed : item context (name :: paren :: (front ++ t :: back)) =
        .failed fault (2 + taken) := by
      rw [item_of_naming naming opens, inside, Outcome.after_failed]
    exact FailsAs.of_item failed (by simp [naming.1])
  | @inBody word name equals t front back rest fault keyword naming binds oneLine ends _ ih =>
    obtain ⟨taken, failed⟩ := ih.sequence
    have whole : word :: name :: equals :: front ++ t :: (back ++ rest) =
        word :: name :: equals :: (front ++ t :: back ++ rest) := by simp
    rw [whole]
    exact FailsAs.of_item (item_of_body_failed keyword naming binds oneLine ends failed) (by simp)
  | @afterSingle context u t node front back fault single _ ih =>
    have notClose : u.kind ≠ .parenClose := by
      cases single <;> simp_all
    have whole : u :: front ++ t :: back = [u] ++ (front ++ t :: back) := by simp
    rw [whole]
    exact FailsAs.append (by simp) (by simpa using notClose) (item_of_single single _) ih
  | @afterCall context name paren close t inner front back params fault naming opens inside closes _
      ih =>
    have whole : name :: paren :: (inner ++ close :: front) ++ t :: back =
        name :: paren :: (inner ++ [close]) ++ (front ++ t :: back) := by simp
    have first := inside.readsAs.item_call naming opens closes context (front ++ t :: back)
    rw [whole]
    exact FailsAs.append (by simp) (by simp [naming.1]) (by simpa using first) ih
  | @afterLine word name equals newline t line front back body fault keyword naming binds oneLine
      inside lineEnd _ ih =>
    have ends : EndsLine (newline :: (front ++ t :: back)) :=
      stopsAt_cons (by simp [lineEnd]) _
    have whole : word :: name :: equals :: (line ++ newline :: front) ++ t :: back =
        word :: name :: equals :: line ++ newline :: (front ++ t :: back) := by simp
    have first := inside.readsAs.item_declaration keyword naming binds oneLine ends
    have behind : FailsAs .statement (newline :: (front ++ t :: back)) fault :=
      FailsAs.append (List.cons_ne_nil newline []) (by simp [lineEnd])
        (item_of_single (.newline lineEnd) (front ++ t :: back)) ih
    rw [whole]
    exact FailsAs.append (by simp) (by simp [keyword.1]) (by simpa using first) behind

end Failing

/-! Reading that fails is stuck. -/

/-- What fails as arguments is stuck, or lacks the closing parenthesis only. -/
def ArgumentsStuck (tokens : List Token) : Prop :=
  ∀ callee fault taken, arguments callee tokens = .failed fault taken →
    (fault = .unclosedCall callee ∧ ∃ params, Items .arguments tokens params) ∨
      ∃ front t back, tokens = front ++ t :: back ∧ Stuck .arguments front t back fault

/-- What fails as a whole is stuck. -/
def SequenceStuck (tokens : List Token) : Prop :=
  ∀ context fault taken, context ≠ .arguments →
    (context = .assignment → ∀ t ∈ tokens, t.kind ≠ .newline) →
    sequence context tokens = .failed fault taken →
      ∃ front t back, tokens = front ++ t :: back ∧ Stuck context front t back fault

theorem Outcome.after_eq_failed_iff {α β : Type} {n taken : Nat} {f : α → β} {outcome : Outcome α}
    {fault : ParseFault} :
    outcome.after n f = .failed fault taken ↔
      ∃ k, outcome = .failed fault k ∧ n + k = taken := by
  cases outcome <;> simp [after]

/-- A declaration that fails is blocked in front of its body, or its body fails. -/
theorem declaration_failed_cases {word : Token} {tokens : List Token} {fault : ParseFault}
    {taken : Nat} (keyword : word.kind = .name ∧ word.text = "let")
    (h : declaration word tokens = .failed fault taken) :
    (∃ front t back, word :: tokens = front ++ t :: back ∧
      Blocked .statement front t back fault) ∨
    ∃ name equals rest k, tokens = name :: equals :: rest ∧ Naming name ∧
      equals.kind = .equals ∧ sequence .assignment (restOfLine rest) = .failed fault k := by
  rw [declaration.eq_def] at h
  split at h
  · cases h
    exact Or.inl ⟨[], word, [], rfl, .noVariable keyword⟩
  rename_i name ts
  split_ifs at h with isName reserved
  · cases h
    exact Or.inl ⟨[word], name, ts, rfl, .reserved keyword isName (isReserved_iff.mp reserved)⟩
  · have naming : Naming name := ⟨isName, by rwa [isReserved_iff] at reserved⟩
    split at h
    · cases h
      exact Or.inl ⟨[word], name, [], rfl, .noEquals keyword naming⟩
    rename_i equals rest
    split_ifs at h with binds
    · split at h
      · cases h
      · rename_i k failed
        cases h
        exact Or.inr ⟨name, equals, rest, k, rfl, naming, binds, failed⟩
    · cases h
      exact Or.inl ⟨[word, name], equals, rest, rfl, .otherThanEquals keyword naming binds⟩
  · cases h
    exact Or.inl ⟨[word], name, ts, rfl, .noName keyword isName⟩

/-- An item that fails is blocked, or its arguments or its body fail. -/
theorem item_failed_cases {context : Context} {t : Token} {ts : List Token} {fault : ParseFault}
    {taken : Nat} (h : item context (t :: ts) = .failed fault taken)
    (inside : context = .arguments → t.kind ≠ .parenClose) :
    (∃ front u back, t :: ts = front ++ u :: back ∧ Blocked context front u back fault) ∨
    (∃ paren rest k, ts = paren :: rest ∧ Naming t ∧ paren.kind = .parenOpen ∧
      arguments t rest = .failed fault k) ∨
    (context = .statement ∧ (t.kind = .name ∧ t.text = "let") ∧
      ∃ name equals rest k, ts = name :: equals :: rest ∧ Naming name ∧
        equals.kind = .equals ∧ sequence .assignment (restOfLine rest) = .failed fault k) := by
  rw [item.eq_def] at h
  cases kind : t.kind <;> simp only [kind] at h
  case name =>
    split_ifs at h with boolean keyword inStatement
    · subst inStatement
      obtain ⟨k, failed, -⟩ := Outcome.after_eq_failed_iff.mp h
      rcases declaration_failed_cases ⟨kind, keyword⟩ failed with blocked | body
      · exact Or.inl blocked
      · exact Or.inr (Or.inr ⟨rfl, ⟨rfl, keyword⟩, body⟩)
    · cases h
      exact Or.inl ⟨[], t, ts, rfl, .nested ⟨kind, keyword⟩ inStatement⟩
    · have free : t.text ∉ reservedWords := by
        rw [← isReserved_iff, isReserved]
        simp [keyword, boolean]
      split at h
      · cases h
        exact Or.inl ⟨[], t, [], rfl, .notCalled ⟨kind, free⟩ (stopsAt_nil _)⟩
      rename_i paren rest
      split_ifs at h with opens
      · obtain ⟨k, failed, -⟩ := Outcome.after_eq_failed_iff.mp h
        exact Or.inr (Or.inl ⟨paren, rest, k, rfl, ⟨kind, free⟩, opens, failed⟩)
      · cases h
        exact Or.inl ⟨[], t, paren :: rest, rfl,
          .notCalled ⟨kind, free⟩ (stopsAt_cons (by simp [opens]) rest)⟩
  case comment | commentBlock =>
    split_ifs at h with inArguments
    cases h
    subst inArguments
    exact Or.inl ⟨[], t, ts, rfl, .comment (by simp [kind])⟩
  case newline => split_ifs at h
  case equals | parenOpen | parenClose | braceOpen | braceClose =>
    cases h
    exact Or.inl ⟨[], t, ts, rfl, .unexpected (by simp [kind]) inside⟩
  all_goals cases h

/-- At a line end among statements reading is never stuck, so it is stuck behind it. -/
theorem Stuck.behind_newline {newline t : Token} {front back more : List Token}
    {fault : ParseFault} (h : Stuck .statement front t back fault)
    (lineEnd : newline.kind = .newline) (split : newline :: more = front ++ t :: back) :
    ∃ behind, front = newline :: behind ∧ Stuck .statement behind t back fault := by
  have notName : ∀ {u : Token} {us : List Token}, u.kind = .name → newline :: more ≠ u :: us := by
    rintro u us kind ⟨⟩
    rw [lineEnd] at kind
    cases kind
  cases h with
  | here blocked =>
    cases blocked with
    | nested keyword inside => exact absurd rfl inside
    | notCalled naming _ => exact absurd split (notName naming.1)
    | unexpected kind _ =>
      obtain ⟨rfl, -⟩ := List.cons.inj split
      simp [lineEnd] at kind
    | noVariable keyword => exact absurd split (notName keyword.1)
    | noName keyword _ => exact absurd split (notName keyword.1)
    | reserved keyword _ _ => exact absurd split (notName keyword.1)
    | noEquals keyword _ => exact absurd split (notName keyword.1)
    | otherThanEquals keyword _ _ => exact absurd split (notName keyword.1)
  | unclosed naming _ _ => exact absurd split (notName naming.1)
  | inCall naming _ _ => exact absurd split (notName naming.1)
  | inBody keyword _ _ _ _ _ => exact absurd split (notName keyword.1)
  | afterSingle single later =>
    obtain ⟨rfl, -⟩ := List.cons.inj split
    exact ⟨_, rfl, later⟩
  | afterCall naming _ _ _ _ => exact absurd split (notName naming.1)
  | afterLine keyword _ _ _ _ _ _ => exact absurd split (notName keyword.1)

/-- Behind an item that is read, reading is stuck where it is stuck in the rest. -/
theorem Stuck.behind_item {context : Context} {t u : Token} {ts front back : List Token}
    {node : Option Tree} {taken : Nat} {fault : ParseFault}
    (h : Stuck context front u back fault) (read : item context (t :: ts) = .read node taken)
    (inLine : context = .assignment → t.kind ≠ .newline)
    (rest : ts.drop (taken - 1) = front ++ u :: back) :
    ∃ before, t :: ts = before ++ u :: back ∧ Stuck context before u back fault := by
  rcases item_read_cases read inLine with ⟨single, rfl⟩ | ⟨tree, rfl, call⟩ | ⟨rfl, tree, rfl, decl⟩
  · refine ⟨t :: front, ?_, .afterSingle single h⟩
    simpa using rest
  · obtain ⟨paren, ts, params, k, rfl, opens, readInside, rfl, rfl⟩ := call.parts
    obtain ⟨inner, close, after, rfl, closes, rfl, inside⟩ :=
      (read_derived ts).1 t params k readInside
    have split : t :: paren :: (inner ++ close :: after) =
        t :: paren :: (inner ++ [close]) ++ after := by simp
    have size : (t :: paren :: (inner ++ [close])).length = 2 + (inner.length + 1) := by
      simp only [List.length_cons, List.length_append, List.length_nil]
      omega
    have same := drop_of_split split (by simp)
    rw [size, rest] at same
    subst same
    exact ⟨t :: paren :: (inner ++ close :: front), by simp,
      .afterCall call.naming opens inside closes h⟩
  · obtain ⟨name, equals, ts, body, k, rfl, naming, binds, readInside, rfl, rfl⟩ := decl.parts
    obtain ⟨after, lines, oneLine, ends⟩ := exists_takeWhile_append (·.kind != .newline) ts
    have line : ∀ t ∈ restOfLine ts, t.kind ≠ .newline := fun t mem => by
      simpa using oneLine t mem
    have inside := ((read_derived (restOfLine ts)).2 .assignment body k (fun _ => line)
      readInside).1
    have split : t :: name :: equals :: ts = t :: name :: equals :: restOfLine ts ++ after := by
      simp only [List.cons_append, restOfLine, ← lines]
    have size : (t :: name :: equals :: restOfLine ts).length = 3 + (restOfLine ts).length := by
      simp only [List.length_cons]
      omega
    have same := drop_of_split split (by simp)
    rw [size, rest] at same
    -- The line ends behind the declaration, and there reading is not stuck yet.
    cases after with
    | nil => simp at same
    | cons newline more =>
      have lineEnd : newline.kind = .newline := by simpa using ends newline more rfl
      obtain ⟨behind, rfl, later⟩ := h.behind_newline lineEnd same.symm
      refine ⟨t :: name :: equals :: (restOfLine ts ++ newline :: behind), ?_,
        .afterLine decl.keyword naming binds line inside lineEnd later⟩
      rw [split, ← same]
      simp

/-- An item that fails is stuck. -/
theorem stuck_of_item {context : Context} {t : Token} {ts : List Token} {fault : ParseFault}
    {taken : Nat}
    (shorter : ∀ tokens : List Token, tokens.length < (t :: ts).length →
      ArgumentsStuck tokens ∧ SequenceStuck tokens)
    (inside : context = .arguments → t.kind ≠ .parenClose)
    (h : item context (t :: ts) = .failed fault taken) :
    ∃ front u back, t :: ts = front ++ u :: back ∧ Stuck context front u back fault := by
  rcases item_failed_cases h inside with ⟨front, u, back, split, blocked⟩ |
    ⟨paren, rest, k, rfl, naming, opens, failed⟩ |
    ⟨rfl, keyword, name, equals, rest, k, rfl, naming, binds, failed⟩
  · exact ⟨front, u, back, split, .here blocked⟩
  · have less : rest.length < (t :: paren :: rest).length := by
      simp only [List.length_cons]
      omega
    rcases (shorter rest less).1 t fault k failed with
      ⟨rfl, params, derived⟩ | ⟨front, u, back, rfl, stuck⟩
    · exact ⟨[], t, paren :: rest, rfl, .unclosed naming opens derived⟩
    · exact ⟨t :: paren :: front, u, back, rfl, .inCall naming opens stuck⟩
  · obtain ⟨after, split, oneLine, ends⟩ := exists_takeWhile_append (·.kind != .newline) rest
    have line : ∀ t ∈ restOfLine rest, t.kind ≠ .newline := fun t mem => by
      simpa using oneLine t mem
    have length := length_restOfLine_le rest
    have less : (restOfLine rest).length < (t :: name :: equals :: rest).length := by
      simp only [List.length_cons]
      omega
    obtain ⟨front, u, back, same, stuck⟩ := (shorter (restOfLine rest) less).2 .assignment fault k
      (by simp) (fun _ => line) failed
    rw [same] at line
    refine ⟨t :: name :: equals :: front, u, back ++ after, ?_,
      .inBody keyword naming binds line ends stuck⟩
    have whole : rest = front ++ u :: back ++ after := by
      rw [← same]
      exact split
    simpa using whole

theorem argumentsStuck_cons {t : Token} {ts : List Token}
    (shorter : ∀ tokens : List Token, tokens.length < (t :: ts).length →
      ArgumentsStuck tokens ∧ SequenceStuck tokens) : ArgumentsStuck (t :: ts) := by
  intro callee fault taken h
  rw [arguments.eq_def] at h
  simp only at h
  split_ifs at h with closes
  split at h
  · rename_i node k read
    obtain ⟨m, failed, -⟩ := Outcome.after_eq_failed_iff.mp h
    have less : (ts.drop (k - 1)).length < (t :: ts).length := by
      simp only [List.length_drop, List.length_cons]
      omega
    rcases (shorter _ less).1 callee fault m failed with
      ⟨rfl, others, derived⟩ | ⟨front, u, back, rest, stuck⟩
    · obtain ⟨used, rest, split, rfl, nonempty, more⟩ :=
        extends_of_item (fun tokens _ => read_derived tokens) (by simp) read
      rw [drop_of_split split nonempty] at derived
      rw [split]
      exact Or.inl ⟨rfl, _, more rest others id derived⟩
    · obtain ⟨before, split, whole⟩ := stuck.behind_item read (by simp) rest
      exact Or.inr ⟨before, u, back, split, whole⟩
  · rename_i failed
    cases h
    exact Or.inr (stuck_of_item shorter (fun _ => closes) failed)

theorem sequenceStuck_cons {t : Token} {ts : List Token}
    (shorter : ∀ tokens : List Token, tokens.length < (t :: ts).length →
      ArgumentsStuck tokens ∧ SequenceStuck tokens) : SequenceStuck (t :: ts) := by
  intro context fault taken outside inLine h
  rw [sequence.eq_def] at h
  simp only at h
  split at h
  · rename_i node k read
    obtain ⟨m, failed, -⟩ := Outcome.after_eq_failed_iff.mp h
    have less : (ts.drop (k - 1)).length < (t :: ts).length := by
      simp only [List.length_drop, List.length_cons]
      omega
    have inRest : context = .assignment → ∀ u ∈ ts.drop (k - 1), u.kind ≠ .newline := by
      intro eq u mem
      exact inLine eq u (List.mem_cons_of_mem t (List.mem_of_mem_drop mem))
    obtain ⟨front, u, back, rest, stuck⟩ :=
      (shorter _ less).2 context fault m outside inRest failed
    obtain ⟨before, split, whole⟩ :=
      stuck.behind_item read (fun eq => inLine eq t List.mem_cons_self) rest
    exact ⟨before, u, back, split, whole⟩
  · rename_i failed
    cases h
    exact stuck_of_item shorter (fun eq => absurd eq outside) failed

/-- As for what is read, the length of the list carries the induction. -/
theorem failed_stuck (tokens : List Token) : ArgumentsStuck tokens ∧ SequenceStuck tokens := by
  induction size : tokens.length using Nat.strong_induction_on generalizing tokens with
  | _ n ih =>
    subst size
    have shorter : ∀ rest : List Token, rest.length < tokens.length →
        ArgumentsStuck rest ∧ SequenceStuck rest := fun rest less => ih _ less rest rfl
    cases tokens with
    | nil =>
      constructor
      · intro callee fault taken h
        rw [arguments] at h
        cases h
        exact Or.inl ⟨rfl, [], .empty⟩
      · intro context fault taken _ _ h
        rw [sequence] at h
        cases h
    | cons t ts => exact ⟨argumentsStuck_cons shorter, sequenceStuck_cons shorter⟩

/-- Reading all tokens of a program fails exactly where it is stuck. -/
theorem sequence_failed_iff {tokens : List Token} {fault : ParseFault} :
    (∃ taken, sequence .statement tokens = .failed fault taken) ↔
      ∃ front t back, tokens = front ++ t :: back ∧ Stuck .statement front t back fault := by
  constructor
  · rintro ⟨taken, failed⟩
    exact (failed_stuck tokens).2 .statement fault taken (by simp) (by simp) failed
  · rintro ⟨front, t, back, rfl, stuck⟩
    exact stuck.failsAs.sequence

end XoLang
