import Mathlib.Tactic.Common
import XoLang.Proofs.Runs
import XoLang.Tree.Parser

/-!
# The grammar of token lists

A list of tokens is read without a fault exactly when the grammar derives a tree from it, and then
reading gives that tree. The grammar speaks of any tokens, also of those that no source gives. It
has one rule for items of one token, one for calls and one for declarations; the context says
which of them there are.

The body of a declaration is derived on its own from the run of tokens before the next line end, so
a call in it has no line end between its parentheses.
-/

namespace XoLang

/-- The words that are no names. -/
def reservedWords : List String := ["let", "true", "false"]

/-- A token that names something. -/
def Naming (t : Token) : Prop := t.kind = .name ∧ t.text ∉ reservedWords

/-- What follows a declaration: the end of the tokens or a line end. -/
def EndsLine (tokens : List Token) : Prop := StopsAt (·.kind != .newline) tokens

/-- Items of one token in a context, with the node they give, if any. -/
inductive Single : Context → Token → Option Tree → Prop
  | comma {context : Context} {t : Token} (h : t.kind = .comma) : Single context t none
  | number {context : Context} {t : Token} (h : t.kind = .number) :
      Single context t (some (.leaf .number t.text (some t.location)))
  | string {context : Context} {t : Token} (h : t.kind = .string) :
      Single context t (some (.leaf .string t.text (some t.location)))
  | boolean {context : Context} {t : Token} (h : t.kind = .name)
      (word : t.text = "true" ∨ t.text = "false") :
      Single context t (some (.leaf .boolean t.text (some t.location)))
  | comment {context : Context} {t : Token} (h : t.kind = .comment)
      (allowed : context ≠ .arguments) :
      Single context t (some (.leaf .comment t.text (some t.location)))
  | commentBlock {context : Context} {t : Token} (h : t.kind = .commentBlock)
      (allowed : context ≠ .arguments) :
      Single context t (some (.leaf .commentBlock t.text (some t.location)))
  | newline {t : Token} (h : t.kind = .newline) :
      Single .statement t (some (.newline (some t.location)))
  | separator {t : Token} (h : t.kind = .newline) : Single .arguments t none

/-- The nodes that a list of tokens stands for in a context. -/
inductive Items : Context → List Token → List Tree → Prop
  | empty {context : Context} : Items context [] []
  | single {context : Context} {t : Token} {node : Option Tree} {tokens : List Token}
      {nodes : List Tree} (item : Single context t node) (rest : Items context tokens nodes) :
      Items context (t :: tokens) (node.toList ++ nodes)
  | call {context : Context} {name paren close : Token} {inner tokens : List Token}
      {params nodes : List Tree} (naming : Naming name) (opens : paren.kind = .parenOpen)
      (inside : Items .arguments inner params) (closes : close.kind = .parenClose)
      (rest : Items context tokens nodes) :
      Items context (name :: paren :: (inner ++ close :: tokens))
        (.call name.text params (some name.location) :: nodes)
  | declaration {word name equals : Token} {line tokens : List Token} {body nodes : List Tree}
      (keyword : word.kind = .name ∧ word.text = "let") (naming : Naming name)
      (binds : equals.kind = .equals) (oneLine : ∀ t ∈ line, t.kind ≠ .newline)
      (ends : EndsLine tokens) (inside : Items .assignment line body)
      (rest : Items .statement tokens nodes) :
      Items .statement (word :: name :: equals :: (line ++ tokens))
        (.assignment name.text body (some word.location) :: nodes)

theorem isBooleanWord_iff {word : String} :
    isBooleanWord word = true ↔ word = "true" ∨ word = "false" := by
  simp [isBooleanWord]

theorem isReserved_iff {word : String} : isReserved word = true ↔ word ∈ reservedWords := by
  rw [isReserved, Bool.or_eq_true, decide_eq_true_eq, isBooleanWord_iff]
  simp [declarationWord, reservedWords]

theorem restOfLine_append {line rest : List Token} (oneLine : ∀ t ∈ line, t.kind ≠ .newline)
    (ends : EndsLine rest) : restOfLine (line ++ rest) = line :=
  takeWhile_append_of_stopsAt (fun t mem => by simpa using oneLine t mem) ends

theorem Naming.not_keyword {name : Token} (naming : Naming name) :
    ¬ (name.kind = .name ∧ name.text = "let") := by
  rintro ⟨-, text⟩
  exact naming.2 (by simp [reservedWords, text])

theorem Single.not_keyword {context : Context} {u : Token} {node : Option Tree}
    (h : Single context u node) : ¬ (u.kind = .name ∧ u.text = "let") := by
  cases h with
  | boolean kind word =>
    rintro ⟨-, text⟩
    rw [text] at word
    simp at word
  | _ => simp_all

/-! What one item can be. -/

theorem item_of_single {context : Context} {t : Token} {node : Option Tree}
    (h : Single context t node) (ts : List Token) : item context (t :: ts) = .read node 1 := by
  cases h with
  | comma h => rw [item.eq_def]; simp [h]
  | number h => rw [item.eq_def]; simp [h]
  | string h => rw [item.eq_def]; simp [h]
  | boolean h word => rw [item.eq_def]; simp [h, isBooleanWord_iff.mpr word]
  | comment h allowed => rw [item.eq_def]; simp [h, allowed]
  | commentBlock h allowed => rw [item.eq_def]; simp [h, allowed]
  | newline h => rw [item.eq_def]; simp [h]
  | separator h => rw [item.eq_def]; simp [h]

theorem item_of_naming {name paren : Token} (naming : Naming name)
    (opens : paren.kind = .parenOpen) (context : Context) (ts : List Token) :
    item context (name :: paren :: ts) =
      (arguments name ts).after 2 fun params =>
        some (.call name.text params (some name.location)) := by
  have free : isReserved name.text = false := by
    simpa [← isReserved_iff] using naming.2
  simp only [isReserved, Bool.or_eq_false_iff, decide_eq_false_iff_not] at free
  rw [item.eq_def]
  simp [naming.1, free.1, free.2, opens]

theorem item_of_keyword {word : Token} (keyword : word.kind = .name ∧ word.text = "let")
    (ts : List Token) : item .statement (word :: ts) = (declaration word ts).after 1 some := by
  rw [item.eq_def]
  simp [keyword.1, keyword.2, isBooleanWord, declarationWord]

theorem declaration_of_line {word name equals : Token} {line rest : List Token} {body : List Tree}
    {taken : Nat} (naming : Naming name) (binds : equals.kind = .equals)
    (oneLine : ∀ t ∈ line, t.kind ≠ .newline) (ends : EndsLine rest)
    (read : sequence .assignment line = .read body taken) :
    declaration word (name :: equals :: (line ++ rest)) =
      .read (.assignment name.text body (some word.location)) (2 + line.length) := by
  have free : ¬ isReserved name.text = true := by
    simpa [isReserved_iff] using naming.2
  simp only [declaration, if_pos naming.1, if_neg free, if_pos binds,
    restOfLine_append oneLine ends, read]

theorem Outcome.after_eq_read_iff {α β : Type} {n taken : Nat} {f : α → β} {outcome : Outcome α}
    {value : β} :
    outcome.after n f = .read value taken ↔
      ∃ inner k, outcome = .read inner k ∧ f inner = value ∧ n + k = taken := by
  cases outcome <;> simp [after]

/-- A call at the front of some tokens, its arguments read behind the parenthesis. -/
structure CallAt (name : Token) (tokens : List Token) (node : Tree) (taken : Nat) : Prop where
  naming : Naming name
  parts : ∃ paren rest params k, tokens = paren :: rest ∧ paren.kind = .parenOpen ∧
    arguments name rest = .read params k ∧ taken = 2 + k ∧
    node = .call name.text params (some name.location)

/-- A declaration behind its word, its body read on its own. -/
structure DeclarationAt (word : Token) (tokens : List Token) (node : Tree) (taken : Nat) :
    Prop where
  keyword : word.kind = .name ∧ word.text = "let"
  parts : ∃ name equals rest body k, tokens = name :: equals :: rest ∧ Naming name ∧
    equals.kind = .equals ∧ sequence .assignment (restOfLine rest) = .read body k ∧
    taken = 3 + (restOfLine rest).length ∧
    node = .assignment name.text body (some word.location)

theorem declarationAt_of_declaration {word : Token} {tokens : List Token} {node : Tree}
    {taken : Nat} (keyword : word.kind = .name ∧ word.text = "let")
    (h : declaration word tokens = .read node taken) :
    DeclarationAt word tokens node (1 + taken) := by
  refine ⟨keyword, ?_⟩
  rw [declaration.eq_def] at h
  split at h
  · cases h
  rename_i name ts
  split_ifs at h with isName reserved
  split at h
  · cases h
  rename_i equals rest
  split_ifs at h with binds
  split at h
  · rename_i body k read
    cases h
    refine ⟨name, equals, rest, body, k, rfl, ⟨isName, ?_⟩, binds, read, by omega, rfl⟩
    rwa [isReserved_iff] at reserved
  · cases h

/-- What is read as one item is an item of one token, a call or a declaration. A line end is left
out in the body of a declaration, where there is none. -/
theorem item_read_cases {context : Context} {t : Token} {ts : List Token} {node : Option Tree}
    {taken : Nat} (h : item context (t :: ts) = .read node taken)
    (inLine : context = .assignment → t.kind ≠ .newline) :
    (Single context t node ∧ taken = 1) ∨
      (∃ tree, node = some tree ∧ CallAt t ts tree taken) ∨
      (context = .statement ∧ ∃ tree, node = some tree ∧ DeclarationAt t ts tree taken) := by
  rw [item.eq_def] at h
  cases kind : t.kind <;> simp only [kind] at h
  case comma =>
    cases h
    exact Or.inl ⟨.comma kind, rfl⟩
  case comment =>
    split_ifs at h with allowed
    cases h
    exact Or.inl ⟨.comment kind allowed, rfl⟩
  case commentBlock =>
    split_ifs at h with allowed
    cases h
    exact Or.inl ⟨.commentBlock kind allowed, rfl⟩
  case newline =>
    split_ifs at h with inArguments
    · cases h
      subst inArguments
      exact Or.inl ⟨.separator kind, rfl⟩
    · cases h
      cases context with
      | statement => exact Or.inl ⟨.newline kind, rfl⟩
      | assignment => exact absurd kind (inLine rfl)
      | arguments => exact absurd rfl inArguments
  case number =>
    cases h
    exact Or.inl ⟨.number kind, rfl⟩
  case string =>
    cases h
    exact Or.inl ⟨.string kind, rfl⟩
  case name =>
    split_ifs at h with boolean keyword inStatement
    · cases h
      exact Or.inl ⟨.boolean kind (isBooleanWord_iff.mp boolean), rfl⟩
    · obtain ⟨tree, k, read, rfl, rfl⟩ := Outcome.after_eq_read_iff.mp h
      exact Or.inr (Or.inr ⟨inStatement, tree, rfl,
        declarationAt_of_declaration ⟨kind, keyword⟩ read⟩)
    · split at h
      · cases h
      rename_i paren rest
      split_ifs at h with opens
      obtain ⟨params, k, read, rfl, rfl⟩ := Outcome.after_eq_read_iff.mp h
      have free : t.text ∉ reservedWords := by
        rw [← isReserved_iff, isReserved]
        simp [keyword, boolean]
      have naming : Naming t := ⟨kind, free⟩
      exact Or.inr (Or.inl ⟨_, rfl, naming, paren, rest, params, k, rfl, opens, read, rfl, rfl⟩)
  all_goals cases h

/-! Reading is sound: what it gives is derived. -/

/-- What reading arguments gives is derived from the tokens before the closing parenthesis. -/
def ArgumentsDerived (tokens : List Token) : Prop :=
  ∀ callee params taken, arguments callee tokens = .read params taken →
    ∃ inner close rest, tokens = inner ++ close :: rest ∧ close.kind = .parenClose ∧
      taken = inner.length + 1 ∧ Items .arguments inner params

/-- What reading all tokens gives is derived from them. -/
def SequenceDerived (tokens : List Token) : Prop :=
  ∀ context nodes taken, (context = .assignment → ∀ t ∈ tokens, t.kind ≠ .newline) →
    sequence context tokens = .read nodes taken → Items context tokens nodes ∧ taken = tokens.length

/-- Tokens that can be put in front of derived ones and then give one node more, or none. Behind a
declaration the line must end where it ended before. -/
def Extends (context : Context) (used rest : List Token) (node : Option Tree) : Prop :=
  ∀ tokens nodes, (EndsLine rest → EndsLine tokens) → Items context tokens nodes →
    Items context (used ++ tokens) (node.toList ++ nodes)

theorem extends_of_item {context : Context} {t : Token} {ts : List Token} {node : Option Tree}
    {taken : Nat}
    (shorter : ∀ tokens : List Token, tokens.length < (t :: ts).length →
      ArgumentsDerived tokens ∧ SequenceDerived tokens)
    (inLine : context = .assignment → t.kind ≠ .newline)
    (h : item context (t :: ts) = .read node taken) :
    ∃ used rest, t :: ts = used ++ rest ∧ used.length = taken ∧ used ≠ [] ∧
      Extends context used rest node := by
  rcases item_read_cases h inLine with ⟨single, rfl⟩ | ⟨tree, rfl, call⟩ | ⟨rfl, tree, rfl, decl⟩
  · exact ⟨[t], ts, rfl, rfl, by simp, fun tokens nodes _ rest => .single single rest⟩
  · obtain ⟨paren, rest, params, k, rfl, opens, read, rfl, rfl⟩ := call.parts
    obtain ⟨inner, close, after, rfl, closes, rfl, inside⟩ :=
      (shorter rest (by simp only [List.length_cons]; omega)).1 t params k read
    have taken : (t :: paren :: (inner ++ [close])).length = 2 + (inner.length + 1) := by
      simp only [List.length_cons, List.length_append, List.length_nil]
      omega
    refine ⟨t :: paren :: (inner ++ [close]), after, by simp, taken, by simp, ?_⟩
    intro tokens nodes _ more
    have whole : t :: paren :: (inner ++ [close]) ++ tokens =
        t :: paren :: (inner ++ close :: tokens) := by simp
    rw [whole]
    exact .call call.naming opens inside closes more
  · obtain ⟨name, equals, rest, body, k, rfl, naming, binds, read, rfl, rfl⟩ := decl.parts
    obtain ⟨after, split, oneLine, ends⟩ := exists_takeWhile_append (·.kind != .newline) rest
    have line : ∀ t ∈ restOfLine rest, t.kind ≠ .newline := fun t mem => by
      simpa using oneLine t mem
    have length := length_restOfLine_le rest
    have less : (restOfLine rest).length < (t :: name :: equals :: rest).length := by
      simp only [List.length_cons]
      omega
    have inside := ((shorter (restOfLine rest) less).2 .assignment body k (fun _ => line) read).1
    have taken :
        (t :: name :: equals :: restOfLine rest).length = 3 + (restOfLine rest).length := by
      simp only [List.length_cons]
      omega
    refine ⟨t :: name :: equals :: restOfLine rest, after, ?_, taken, by simp, ?_⟩
    · simp only [List.cons_append, restOfLine, ← split]
    intro tokens nodes ending more
    exact .declaration decl.keyword naming binds line (ending ends) inside more

theorem drop_of_split {t : Token} {ts used rest : List Token} (split : t :: ts = used ++ rest)
    (nonempty : used ≠ []) : ts.drop (used.length - 1) = rest := by
  cases used with
  | nil => exact absurd rfl nonempty
  | cons u used =>
    obtain ⟨-, rfl⟩ := List.cons.inj split
    simp

theorem length_rest_lt {t : Token} {ts used rest : List Token} (split : t :: ts = used ++ rest)
    (nonempty : used ≠ []) : rest.length < (t :: ts).length := by
  have positive := List.length_pos_iff.mpr nonempty
  rw [split, List.length_append]
  omega

theorem argumentsDerived_cons {t : Token} {ts : List Token}
    (shorter : ∀ tokens : List Token, tokens.length < (t :: ts).length →
      ArgumentsDerived tokens ∧ SequenceDerived tokens) : ArgumentsDerived (t :: ts) := by
  intro callee params taken h
  rw [arguments.eq_def] at h
  simp only at h
  split_ifs at h with closes
  · cases h
    exact ⟨[], t, ts, rfl, closes, rfl, .empty⟩
  split at h
  · rename_i node k read
    obtain ⟨used, rest, split, rfl, nonempty, more⟩ := extends_of_item shorter (by simp) read
    rw [drop_of_split split nonempty] at h
    obtain ⟨others, k, readRest, rfl, rfl⟩ := Outcome.after_eq_read_iff.mp h
    obtain ⟨inner, close, after, rfl, closes, rfl, inside⟩ :=
      (shorter rest (length_rest_lt split nonempty)).1 callee others k readRest
    exact ⟨used ++ inner, close, after, by simp [split], closes, by simp [Nat.add_assoc],
      more inner others StopsAt.of_append inside⟩
  · cases h

theorem sequenceDerived_cons {t : Token} {ts : List Token}
    (shorter : ∀ tokens : List Token, tokens.length < (t :: ts).length →
      ArgumentsDerived tokens ∧ SequenceDerived tokens) : SequenceDerived (t :: ts) := by
  intro context nodes taken inLine h
  rw [sequence.eq_def] at h
  simp only at h
  split at h
  · rename_i node k read
    obtain ⟨used, rest, split, rfl, nonempty, more⟩ :=
      extends_of_item shorter (fun eq => inLine eq t List.mem_cons_self) read
    rw [drop_of_split split nonempty] at h
    obtain ⟨others, k, readRest, rfl, rfl⟩ := Outcome.after_eq_read_iff.mp h
    have inRest : context = .assignment → ∀ t ∈ rest, t.kind ≠ .newline := by
      intro eq u mem
      exact inLine eq u (split ▸ List.mem_append_right used mem)
    obtain ⟨inside, rfl⟩ :=
      (shorter rest (length_rest_lt split nonempty)).2 context others k inRest readRest
    rw [split]
    exact ⟨more rest others id inside, by simp⟩
  · cases h

/-- Both loops go on with fewer tokens, and an item inside them reads fewer still, so the length of
the list carries the induction. -/
theorem read_derived (tokens : List Token) : ArgumentsDerived tokens ∧ SequenceDerived tokens := by
  induction size : tokens.length using Nat.strong_induction_on generalizing tokens with
  | _ n ih =>
    subst size
    have shorter : ∀ rest : List Token, rest.length < tokens.length →
        ArgumentsDerived rest ∧ SequenceDerived rest := fun rest less => ih _ less rest rfl
    cases tokens with
    | nil =>
      constructor
      · intro callee params taken h
        rw [arguments] at h
        cases h
      · intro context nodes taken _ h
        rw [sequence] at h
        cases h
        exact ⟨.empty, rfl⟩
    | cons t ts => exact ⟨argumentsDerived_cons shorter, sequenceDerived_cons shorter⟩

/-! Reading is complete: what is derived is read. -/

theorem Outcome.after_after {α β γ : Type} (m n : Nat) (f : α → β) (g : β → γ)
    (outcome : Outcome α) : (outcome.after n f).after m g = outcome.after (m + n) (g ∘ f) := by
  cases outcome <;> simp [after, Nat.add_assoc]

theorem sequence_of_item {context : Context} {used rest : List Token} {node : Option Tree}
    (nonempty : used ≠ []) (h : item context (used ++ rest) = .read node used.length) :
    sequence context (used ++ rest) =
      (sequence context rest).after used.length (node.toList ++ ·) := by
  cases split : used ++ rest with
  | nil => exact absurd (List.append_eq_nil_iff.mp split).1 nonempty
  | cons t ts =>
    rw [split] at h
    rw [sequence.eq_def]
    simp only [h, drop_of_split split.symm nonempty]

theorem arguments_of_item {used rest : List Token} {node : Option Tree} (callee : Token)
    (nonempty : used ≠ []) (inside : ∀ t ∈ used.head?, t.kind ≠ .parenClose)
    (h : item .arguments (used ++ rest) = .read node used.length) :
    arguments callee (used ++ rest) =
      (arguments callee rest).after used.length (node.toList ++ ·) := by
  cases used with
  | nil => exact absurd rfl nonempty
  | cons t ts =>
    have notClose : ¬ t.kind = .parenClose := inside t rfl
    simp only [List.cons_append] at h ⊢
    rw [arguments.eq_def]
    simp [notClose, h]

/-- Tokens that are read as some nodes in front of whatever follows. Among statements a line must
end behind them, because the last of them may be the body of a declaration. -/
structure ReadsAs (context : Context) (tokens : List Token) (nodes : List Tree) : Prop where
  sequence : ∀ rest, (context = .statement → EndsLine rest) →
    sequence context (tokens ++ rest) =
      (XoLang.sequence context rest).after tokens.length (nodes ++ ·)
  arguments : context = .arguments → ∀ callee rest, arguments callee (tokens ++ rest) =
    (XoLang.arguments callee rest).after tokens.length (nodes ++ ·)

theorem ReadsAs.nil (context : Context) : ReadsAs context [] [] where
  sequence rest _ := by
    cases h : XoLang.sequence context rest <;> simp [h, Outcome.after]
  arguments _ callee rest := by
    cases h : XoLang.arguments callee rest <;> simp [h, Outcome.after]

/-- One more item in front. -/
theorem ReadsAs.append {context : Context} {used tokens : List Token} {node : Option Tree}
    {nodes : List Tree} (nonempty : used ≠ []) (notClose : ∀ t ∈ used.head?, t.kind ≠ .parenClose)
    (first : ∀ rest, (context = .statement → EndsLine rest) →
      item context (used ++ (tokens ++ rest)) = .read node used.length)
    (more : ReadsAs context tokens nodes) :
    ReadsAs context (used ++ tokens) (node.toList ++ nodes) where
  sequence rest ends := by
    rw [List.append_assoc, sequence_of_item nonempty (first rest ends), more.sequence rest ends,
      Outcome.after_after, List.length_append]
    simp only [Function.comp_def, List.append_assoc]
  arguments inArguments callee rest := by
    subst inArguments
    rw [List.append_assoc, arguments_of_item callee nonempty notClose (first rest (by simp)),
      more.arguments rfl, Outcome.after_after, List.length_append]
    simp only [Function.comp_def, List.append_assoc]

theorem ReadsAs.read_arguments {inner : List Token} {params : List Tree}
    (h : ReadsAs .arguments inner params) {close : Token} (closes : close.kind = .parenClose)
    (callee : Token) (rest : List Token) :
    XoLang.arguments callee (inner ++ close :: rest) = .read params (inner.length + 1) := by
  have closed : XoLang.arguments callee (close :: rest) = .read [] 1 := by
    rw [XoLang.arguments.eq_def]
    simp [closes]
  rw [h.arguments rfl, closed]
  simp [Outcome.after]

theorem ReadsAs.read_sequence {context : Context} {tokens : List Token} {nodes : List Tree}
    (h : ReadsAs context tokens nodes) :
    XoLang.sequence context tokens = .read nodes tokens.length := by
  have read := h.sequence [] (fun _ => stopsAt_nil _)
  rw [List.append_nil, XoLang.sequence] at read
  simpa [Outcome.after] using read

theorem ReadsAs.item_call {name paren close : Token} {inner : List Token} {params : List Tree}
    (h : ReadsAs .arguments inner params) (naming : Naming name) (opens : paren.kind = .parenOpen)
    (closes : close.kind = .parenClose) (context : Context) (rest : List Token) :
    item context (name :: paren :: (inner ++ close :: rest)) =
      .read (some (.call name.text params (some name.location))) (inner.length + 3) := by
  rw [item_of_naming naming opens, h.read_arguments closes]
  simp only [Outcome.after, Outcome.read.injEq, true_and]
  omega

theorem ReadsAs.item_declaration {word name equals : Token} {line rest : List Token}
    {body : List Tree} (h : ReadsAs .assignment line body)
    (keyword : word.kind = .name ∧ word.text = "let") (naming : Naming name)
    (binds : equals.kind = .equals) (oneLine : ∀ t ∈ line, t.kind ≠ .newline)
    (ends : EndsLine rest) :
    item .statement (word :: name :: equals :: (line ++ rest)) =
      .read (some (.assignment name.text body (some word.location))) (line.length + 3) := by
  rw [item_of_keyword keyword, declaration_of_line naming binds oneLine ends h.read_sequence]
  simp only [Outcome.after, Outcome.read.injEq, true_and]
  omega

/-- Derived tokens are read as their nodes. -/
theorem Items.readsAs {context : Context} {tokens : List Token} {nodes : List Tree}
    (h : Items context tokens nodes) : ReadsAs context tokens nodes := by
  induction h with
  | empty => exact .nil _
  | @single context t node tokens nodes single _ ih =>
    have notClose : t.kind ≠ .parenClose := by
      cases single <;> simp_all
    exact ReadsAs.append (List.cons_ne_nil t []) (by simpa using notClose)
      (fun rest _ => item_of_single single (tokens ++ rest)) ih
  | @call context name paren close inner tokens params nodes naming opens _ closes _ ihInside ih =>
    have whole : name :: paren :: (inner ++ close :: tokens) =
        name :: paren :: (inner ++ [close]) ++ tokens := by simp
    have first : ∀ rest, (context = .statement → EndsLine rest) →
        item context (name :: paren :: (inner ++ [close]) ++ (tokens ++ rest)) =
          .read (some (.call name.text params (some name.location)))
            (name :: paren :: (inner ++ [close])).length := by
      intro rest _
      simpa using ihInside.item_call naming opens closes context (tokens ++ rest)
    rw [whole]
    exact ReadsAs.append (by simp) (by simp [naming.1]) first ih
  | @declaration word name equals line tokens body nodes keyword naming binds oneLine ends _ _
      ihInside ih =>
    have first : ∀ rest, (Context.statement = .statement → EndsLine rest) →
        item .statement (word :: name :: equals :: line ++ (tokens ++ rest)) =
          .read (some (.assignment name.text body (some word.location)))
            (word :: name :: equals :: line).length := by
      intro rest ending
      exact ihInside.item_declaration keyword naming binds oneLine (ends.append (ending rfl))
    exact ReadsAs.append (by simp) (by simp [keyword.1]) first ih

/-- Reading all tokens gives some nodes exactly when these are derived. -/
theorem sequence_statement_iff {tokens : List Token} {nodes : List Tree} :
    (∃ taken, sequence .statement tokens = .read nodes taken) ↔ Items .statement tokens nodes := by
  constructor
  · rintro ⟨taken, read⟩
    exact ((read_derived tokens).2 .statement nodes taken (by simp) read).1
  · intro h
    exact ⟨tokens.length, h.readsAs.read_sequence⟩

theorem parseTokens_eq_ok_iff {file : String} {tokens : List Token} {tree : Tree} :
    parseTokens file tokens = .ok tree ↔
      ∃ body, tree = .program body (some (.start file)) ∧ Items .statement tokens body := by
  rw [parseTokens]
  constructor
  · intro h
    split at h
    · rename_i body taken read
      cases h
      exact ⟨body, rfl, sequence_statement_iff.mp ⟨taken, read⟩⟩
    · cases h
  · rintro ⟨body, rfl, derived⟩
    obtain ⟨taken, read⟩ := sequence_statement_iff.mpr derived
    rw [read]

/-! Calls and line ends. -/

/-- Derivations can be joined; among statements the second part must start on a new line. -/
theorem Items.append {context : Context} {tokens more : List Token} {nodes others : List Tree}
    (h : Items context tokens nodes) (rest : Items context more others)
    (ends : context = .statement → EndsLine more) :
    Items context (tokens ++ more) (nodes ++ others) := by
  induction h with
  | empty => exact rest
  | single item _ ih =>
    rw [List.cons_append, List.append_assoc]
    exact .single item (ih rest ends)
  | call naming opens inside closes _ _ ih =>
    simp only [List.cons_append, List.append_assoc]
    exact .call naming opens inside closes (ih rest ends)
  | declaration keyword naming binds oneLine stop inside _ _ ih =>
    simp only [List.cons_append, List.append_assoc]
    exact .declaration keyword naming binds oneLine (stop.append (ends rfl)) inside (ih rest ends)

/-- The body of a declaration is derived from its line alone. -/
theorem Items.body_of_declaration {word name equals : Token} (line : List Token)
    {rest : List Token} {nodes : List Tree} (keyword : word.kind = .name ∧ word.text = "let")
    (oneLine : ∀ t ∈ line, t.kind ≠ .newline) (ends : EndsLine rest)
    (h : Items .statement (word :: name :: equals :: (line ++ rest)) nodes) :
    ∃ body, Items .assignment line body := by
  generalize whole : word :: name :: equals :: (line ++ rest) = tokens at h
  cases h with
  | empty => cases whole
  | single item _ =>
    cases whole
    cases item <;> simp_all
  | call naming _ _ _ _ =>
    obtain ⟨rfl, -⟩ := List.cons.inj whole
    exact absurd (show word.text ∈ reservedWords by simp [keyword.2, reservedWords]) naming.2
  | @declaration _ _ _ line' rest' body _ _ _ _ oneLine' ends' inside _ =>
    simp only [List.cons.injEq] at whole
    obtain ⟨-, -, -, whole⟩ := whole
    have same : line = line' := by
      rw [← restOfLine_append oneLine ends, ← restOfLine_append oneLine' ends', whole]
    exact ⟨body, same ▸ inside⟩

/-- A call is derived only up to its closing parenthesis. -/
theorem Items.closed_of_naming {context : Context} {name paren : Token} {tokens : List Token}
    {nodes : List Tree} (naming : Naming name)
    (h : Items context (name :: paren :: tokens) nodes) :
    ∃ inner close rest params, tokens = inner ++ close :: rest ∧ close.kind = .parenClose ∧
      Items .arguments inner params := by
  generalize whole : name :: paren :: tokens = all at h
  cases h with
  | empty => cases whole
  | single item _ =>
    cases whole
    cases item <;> simp_all [Naming, reservedWords]
  | @call _ _ _ close inner rest params _ _ _ inside closes _ =>
    cases whole
    exact ⟨inner, close, rest, params, rfl, closes, inside⟩
  | declaration keyword _ _ _ _ _ _ =>
    cases whole
    exact absurd (show name.text ∈ reservedWords by simp [keyword.2, reservedWords]) naming.2

/-- No part of some arguments is closed before they end. -/
theorem Items.not_closed_inside {inner rest : List Token} {close : Token}
    {params others : List Tree} (h : Items .arguments (inner ++ close :: rest) params)
    (inside : Items .arguments inner others) : close.kind ≠ .parenClose := by
  intro closes
  have read := inside.readsAs.read_arguments closes close rest
  have unclosed := h.readsAs.arguments rfl close []
  rw [List.append_nil, read, arguments] at unclosed
  cases unclosed

/-- In a line behind derived items a call is derived from the rest of the line. -/
theorem Items.rest_of_line {front rest : List Token} {nodes others : List Tree}
    (oneLine : ∀ t ∈ rest, t.kind ≠ .newline) (h : Items .assignment (front ++ rest) nodes)
    (first : Items .assignment front others) : ∃ more, Items .assignment rest more := by
  have read := h.readsAs.read_sequence
  rw [first.readsAs.sequence rest (by simp)] at read
  obtain ⟨more, taken, read, -, -⟩ := Outcome.after_eq_read_iff.mp read
  exact ⟨more, ((read_derived rest).2 .assignment more taken (fun _ => oneLine) read).1⟩

/-- A declaration whose line ends between the parentheses of a call is not derived. -/
theorem Items.not_broken_in_declaration {word target equals name paren newline : Token}
    {front early later rest : List Token} {nodes params body : List Tree}
    (keyword : word.kind = .name ∧ word.text = "let")
    (oneLine : ∀ t ∈ front, t.kind ≠ .newline) (first : Items .assignment front nodes)
    (naming : Naming name) (opens : paren.kind = .parenOpen)
    (cut : ∀ t ∈ early, t.kind ≠ .newline) (lineEnd : newline.kind = .newline)
    (inside : Items .arguments (early ++ newline :: later) params) :
    ¬ Items .statement
      (word :: target :: equals :: (front ++ name :: paren :: (early ++ newline :: rest)))
      body := by
  intro derived
  have callLine : ∀ t ∈ name :: paren :: early, t.kind ≠ .newline := by
    simp only [List.forall_mem_cons, naming.1, opens]
    exact ⟨by simp, by simp, cut⟩
  have line : ∀ t ∈ front ++ name :: paren :: early, t.kind ≠ .newline :=
    List.forall_mem_append.mpr ⟨oneLine, callLine⟩
  have ends : EndsLine (newline :: rest) := stopsAt_cons (by simp [lineEnd]) rest
  have split : front ++ name :: paren :: (early ++ newline :: rest) =
      front ++ name :: paren :: early ++ newline :: rest := by simp
  rw [split] at derived
  obtain ⟨inLine, derivedLine⟩ := Items.body_of_declaration _ keyword line ends derived
  obtain ⟨more, call⟩ := derivedLine.rest_of_line callLine first
  obtain ⟨inner, close, behind, others, rfl, closes, closed⟩ := call.closed_of_naming naming
  rw [List.append_assoc, List.cons_append] at inside
  exact inside.not_closed_inside closed closes

/-- A program is read from some tokens exactly when the grammar derives its body from them. A call
with a line end between its parentheses is read among statements; in the body of a declaration it
is refused, whatever follows. -/
theorem parseTokens_derives_exactly (file : String) :
    (∀ tokens tree, parseTokens file tokens = .ok tree ↔
      ∃ body, tree = .program body (some ⟨1, 1, file⟩) ∧ Items .statement tokens body) ∧
    (∀ name paren inner close params, Naming name → paren.kind = .parenOpen →
      Items .arguments inner params → close.kind = .parenClose →
      (∃ t ∈ inner, t.kind = .newline) →
      parseTokens file (name :: paren :: (inner ++ [close])) =
        .ok (.program [.call name.text params (some name.location)] (some ⟨1, 1, file⟩)) ∧
      ∀ word target equals front nodes rest tree, (word.kind = .name ∧ word.text = "let") →
        (∀ t ∈ front, t.kind ≠ .newline) → Items .assignment front nodes →
        parseTokens file
          (word :: target :: equals :: (front ++ name :: paren :: (inner ++ close :: rest))) ≠
            .ok tree) := by
  refine ⟨fun tokens tree => parseTokens_eq_ok_iff, ?_⟩
  intro name paren inner close params naming opens inside closes broken
  constructor
  · refine parseTokens_eq_ok_iff.mpr ⟨_, rfl, ?_⟩
    simpa using Items.call naming opens inside closes .empty
  · intro word target equals front nodes rest tree keyword oneLine first h
    obtain ⟨body, -, derived⟩ := parseTokens_eq_ok_iff.mp h
    -- The line of the declaration ends at the first line end between the parentheses.
    obtain ⟨later, split, cut, ends⟩ := exists_takeWhile_append (·.kind != .newline) inner
    have early : ∀ t ∈ inner.takeWhile (·.kind != .newline), t.kind ≠ .newline :=
      fun t mem => by simpa using cut t mem
    cases later with
    | nil =>
      obtain ⟨t, mem, lineEnd⟩ := broken
      rw [List.append_nil] at split
      exact early t (split ▸ mem) lineEnd
    | cons newline later =>
      have lineEnd : newline.kind = .newline := by simpa using ends newline later rfl
      rw [split] at inside derived
      rw [List.append_assoc, List.cons_append] at derived
      exact Items.not_broken_in_declaration keyword oneLine first naming opens early lineEnd inside
        derived

/-- A token of a kind and a text in the first place of a source. -/
def tokenAt (kind : TokenKind) (text : String) : Token := ⟨kind, text, .start "lines.xo"⟩

/-- The same call, alone and in the body of a declaration with a literal before it: no tree is read
from the second, whatever follows the call. -/
theorem open_call_in_declaration_refused :
    parseTokens "lines.xo" [tokenAt .name "f", tokenAt .parenOpen "(", tokenAt .newline "\n",
        tokenAt .parenClose ")"] =
      .ok (.program [.call "f" [] (some ⟨1, 1, "lines.xo"⟩)] (some ⟨1, 1, "lines.xo"⟩)) ∧
    ∀ rest tree, parseTokens "lines.xo" (tokenAt .name "let" :: tokenAt .name "x" ::
        tokenAt .equals "=" :: tokenAt .number "1" :: tokenAt .name "f" ::
        tokenAt .parenOpen "(" :: tokenAt .newline "\n" :: tokenAt .parenClose ")" :: rest) ≠
      .ok tree := by
  obtain ⟨accepted, refused⟩ := (parseTokens_derives_exactly "lines.xo").2 (tokenAt .name "f")
    (tokenAt .parenOpen "(") [tokenAt .newline "\n"] (tokenAt .parenClose ")") []
    ⟨rfl, by decide⟩ rfl (.single (.separator rfl) .empty) rfl (by simp [tokenAt])
  refine ⟨accepted, fun rest tree => ?_⟩
  exact refused (tokenAt .name "let") (tokenAt .name "x") (tokenAt .equals "=")
    [tokenAt .number "1"] _ rest tree ⟨rfl, rfl⟩ (by simp [tokenAt])
    (.single (.number rfl) .empty)

end XoLang
