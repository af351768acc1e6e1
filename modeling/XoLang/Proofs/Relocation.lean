import XoLang.Compile
import XoLang.Proofs.Grammar
import XoLang.Proofs.Lexical

/-!
# Moving places

Reading looks at kinds and texts and only hands places on. So when every place is moved by a
function, tokens, trees and faults come out the same with their places moved. This is proved for
the readers of tokens, of trees and for reports.
-/

namespace XoLang

/-- A token with its place moved. -/
@[reducible] def Token.relocate (f : Location → Location) (t : Token) : Token :=
  { t with location := f t.location }

namespace Tree

mutual

/-- A tree with all its places moved. -/
def relocate (f : Location → Location) : Tree → Tree
  | .leaf kind text location => .leaf kind text (location.map f)
  | .newline location => .newline (location.map f)
  | .assignment name body location => .assignment name (relocateAll f body) (location.map f)
  | .call name params location => .call name (relocateAll f params) (location.map f)
  | .program body location => .program (relocateAll f body) (location.map f)
  | .bare location => .bare (location.map f)
  | .foreign kind location => .foreign kind (location.map f)
termination_by structural tree => tree

/-- Trees with all their places moved. -/
def relocateAll (f : Location → Location) : List Tree → List Tree
  | [] => []
  | tree :: trees => relocate f tree :: relocateAll f trees
termination_by structural trees => trees

end

theorem relocateAll_eq_map (f : Location → Location) (trees : List Tree) :
    relocateAll f trees = trees.map (relocate f) := by
  induction trees with
  | nil => rfl
  | cons tree trees ih => rw [relocateAll, ih, List.map_cons]

end Tree

/-- A fault with the place of its token moved. -/
def ParseFault.relocate (f : Location → Location) : ParseFault → ParseFault
  | .unexpectedEnd => .unexpectedEnd
  | .missing what => .missing what
  | .mismatch what found => .mismatch what (found.relocate f)
  | .reservedName found => .reservedName (found.relocate f)
  | .commentInArguments found => .commentInArguments (found.relocate f)
  | .nestedDeclaration found => .nestedDeclaration (found.relocate f)
  | .notCalled found => .notCalled (found.relocate f)
  | .unclosedCall callee => .unclosedCall (callee.relocate f)
  | .unexpected found => .unexpected (found.relocate f)

/-- An outcome with its value changed by `g` and the place of a fault moved by `f`. -/
def Outcome.relocate {α : Type} (f : Location → Location) (g : α → α) : Outcome α → Outcome α
  | .read value taken => .read (g value) taken
  | .failed fault taken => .failed (fault.relocate f) taken

/-! Trees. -/

section Trees

variable (f : Location → Location)

/-- Moved tokens give the moved outcome of reading arguments. -/
def ArgumentsMove (tokens : List Token) : Prop :=
  ∀ callee, arguments (callee.relocate f) (tokens.map (·.relocate f)) =
    (arguments callee tokens).relocate f (·.map (·.relocate f))

/-- Moved tokens give the moved outcome of reading all tokens. -/
def SequenceMove (tokens : List Token) : Prop :=
  ∀ context, sequence context (tokens.map (·.relocate f)) =
    (sequence context tokens).relocate f (·.map (·.relocate f))

variable {f}

theorem Outcome.relocate_after {α β : Type} (n : Nat) (g : α → α) (h : β → β) (k k' : α → β)
    (commutes : ∀ a, k' (g a) = h (k a)) (outcome : Outcome α) :
    (outcome.relocate f g).after n k' = (outcome.after n k).relocate f h := by
  cases outcome <;> simp [relocate, after, commutes]

theorem restOfLine_relocate (tokens : List Token) :
    restOfLine (tokens.map (·.relocate f)) = (restOfLine tokens).map (·.relocate f) := by
  rw [restOfLine, restOfLine, List.takeWhile_map]
  rfl

theorem declaration_relocate {tokens : List Token} (word : Token)
    (shorter : ∀ rest : List Token, rest.length < tokens.length → SequenceMove f rest) :
    declaration (word.relocate f) (tokens.map (·.relocate f)) =
      (declaration word tokens).relocate f (·.relocate f) := by
  rw [declaration.eq_def, declaration.eq_def word]
  cases tokens with
  | nil => rfl
  | cons name ts =>
    simp only [List.map_cons]
    by_cases isName : name.kind = .name
    · rw [if_pos isName, if_pos isName]
      by_cases reserved : isReserved name.text = true
      · rw [if_pos reserved, if_pos reserved]
        rfl
      rw [if_neg reserved, if_neg reserved]
      cases ts with
      | nil => rfl
      | cons equals rest =>
        simp only [List.map_cons]
        by_cases binds : equals.kind = .equals
        · have length := length_restOfLine_le rest
          have less : (restOfLine rest).length < (name :: equals :: rest).length := by
            simp only [List.length_cons]
            omega
          have moved := shorter (restOfLine rest) less .assignment
          rw [if_pos binds, if_pos binds, restOfLine_relocate, moved]
          cases sequence .assignment (restOfLine rest) with
          | read body taken => simp [Outcome.relocate, Tree.relocate, Tree.relocateAll_eq_map]
          | failed fault taken => simp [Outcome.relocate]
        · rw [if_neg binds, if_neg binds]
          rfl
    · rw [if_neg isName, if_neg isName]
      rfl

theorem item_relocate_name {t : Token} {ts : List Token} (context : Context)
    (isName : t.kind = .name)
    (shorter : ∀ rest : List Token, rest.length < (t :: ts).length →
      ArgumentsMove f rest ∧ SequenceMove f rest) :
    item context ((t :: ts).map (·.relocate f)) =
      (item context (t :: ts)).relocate f (·.map (·.relocate f)) := by
  rw [item.eq_def, item.eq_def context (t :: ts)]
  simp only [List.map_cons, isName]
  by_cases boolean : isBooleanWord t.text = true
  · rw [if_pos boolean, if_pos boolean]
    rfl
  rw [if_neg boolean, if_neg boolean]
  by_cases keyword : t.text = declarationWord
  · rw [if_pos keyword, if_pos keyword]
    by_cases inStatement : context = .statement
    · have less : ∀ rest : List Token, rest.length < ts.length →
          rest.length < (t :: ts).length := by
        intro rest less
        simp only [List.length_cons]
        omega
      rw [if_pos inStatement, if_pos inStatement,
        declaration_relocate t fun rest short => (shorter rest (less rest short)).2]
      exact Outcome.relocate_after 1 _ _ some some (fun _ => rfl) _
    · rw [if_neg inStatement, if_neg inStatement]
      rfl
  rw [if_neg keyword, if_neg keyword]
  cases ts with
  | nil => rfl
  | cons paren rest =>
    simp only [List.map_cons]
    by_cases opens : paren.kind = .parenOpen
    · have moved := (shorter rest (by simp only [List.length_cons]; omega)).1 t
      rw [if_pos opens, if_pos opens, moved]
      refine Outcome.relocate_after 2 _ _ _ _ (fun params => ?_) _
      simp [Tree.relocate, Tree.relocateAll_eq_map]
    · rw [if_neg opens, if_neg opens]
      rfl

theorem item_relocate {t : Token} {ts : List Token} (context : Context)
    (shorter : ∀ rest : List Token, rest.length < (t :: ts).length →
      ArgumentsMove f rest ∧ SequenceMove f rest) :
    item context ((t :: ts).map (·.relocate f)) =
      (item context (t :: ts)).relocate f (·.map (·.relocate f)) := by
  by_cases isName : t.kind = .name
  · exact item_relocate_name context isName shorter
  rw [item.eq_def, item.eq_def context (t :: ts)]
  simp only [List.map_cons]
  -- Every other kind is settled by the token and the context alone.
  cases kind : t.kind
  case name => exact absurd kind isName
  all_goals cases context <;> rfl

theorem argumentsMove_cons {t : Token} {ts : List Token}
    (shorter : ∀ rest : List Token, rest.length < (t :: ts).length →
      ArgumentsMove f rest ∧ SequenceMove f rest) : ArgumentsMove f (t :: ts) := by
  intro callee
  have first := item_relocate .arguments shorter
  rw [List.map_cons] at first ⊢
  rw [arguments.eq_def, arguments.eq_def callee]
  simp only [first]
  by_cases closes : t.kind = .parenClose
  · rw [if_pos closes, if_pos closes]
    rfl
  rw [if_neg closes, if_neg closes]
  cases item .arguments (t :: ts) with
  | failed fault taken => rfl
  | read node taken =>
    have less : (ts.drop (taken - 1)).length < (t :: ts).length := by
      simp only [List.length_drop, List.length_cons]
      omega
    have rest := (shorter (ts.drop (taken - 1)) less).1 callee
    simp only [Outcome.relocate, ← List.map_drop, rest]
    refine Outcome.relocate_after taken _ _ _ _ (fun others => ?_) _
    cases node <;> simp

theorem sequenceMove_cons {t : Token} {ts : List Token}
    (shorter : ∀ rest : List Token, rest.length < (t :: ts).length →
      ArgumentsMove f rest ∧ SequenceMove f rest) : SequenceMove f (t :: ts) := by
  intro context
  have first := item_relocate context shorter
  rw [List.map_cons] at first ⊢
  rw [sequence.eq_def, sequence.eq_def context (t :: ts)]
  simp only [first]
  cases item context (t :: ts) with
  | failed fault taken => rfl
  | read node taken =>
    have less : (ts.drop (taken - 1)).length < (t :: ts).length := by
      simp only [List.length_drop, List.length_cons]
      omega
    have rest := (shorter (ts.drop (taken - 1)) less).2 context
    simp only [Outcome.relocate, ← List.map_drop, rest]
    refine Outcome.relocate_after taken _ _ _ _ (fun others => ?_) _
    cases node <;> simp

theorem read_relocate (f : Location → Location) (tokens : List Token) :
    ArgumentsMove f tokens ∧ SequenceMove f tokens := by
  induction size : tokens.length using Nat.strong_induction_on generalizing tokens with
  | _ n ih =>
    subst size
    have shorter : ∀ rest : List Token, rest.length < tokens.length →
        ArgumentsMove f rest ∧ SequenceMove f rest := fun rest less => ih _ less rest rfl
    cases tokens with
    | nil =>
      constructor
      · intro callee
        rw [List.map_nil, arguments, arguments]
        rfl
      · intro context
        rw [List.map_nil, sequence]
        rfl
    | cons t ts => exact ⟨argumentsMove_cons shorter, sequenceMove_cons shorter⟩

end Trees

/-! Tokens. -/

/-- An error with its place moved. -/
def LexError.relocate (f : Location → Location) (e : LexError) : LexError :=
  { e with location := f e.location }

/-- Tokens or an error with their places moved. -/
def relocateTokens (f : Location → Location) :
    Except LexError (List Token) → Except LexError (List Token)
  | .ok tokens => .ok (tokens.map (·.relocate f))
  | .error e => .error (e.relocate f)

theorem relocateTokens_add (f : Location → Location) (t : Token) (scan : Scan) :
    relocateTokens f (scan.add t).result =
      (relocateTokens f scan.result).map (t.relocate f :: ·) := by
  cases h : scan.result <;> simp [Scan.add, h, relocateTokens, Except.map]

/-- From two points on, in two sources, the places differ by a function. -/
def PlacesMove (f : Location → Location) (file file' : String) (before before' : List Char) :
    Prop :=
  ∀ used, placeAfter file' (before' ++ used) = f (placeAfter file (before ++ used))

section Tokens

variable {f : Location → Location} {file file' : String} {before before' : List Char}

theorem PlacesMove.here (h : PlacesMove f file file' before before') :
    placeAfter file' before' = f (placeAfter file before) := by
  simpa using h []

theorem PlacesMove.behind (h : PlacesMove f file file' before before') (raw : List Char) :
    PlacesMove f file file' (before ++ raw) (before' ++ raw) := by
  intro used
  rw [List.append_assoc, List.append_assoc]
  exact h (raw ++ used)

/-- Two cursors in front of the same characters give the same tokens or the same fault, at places
that differ as the places behind the cursors do. -/
theorem scan_relocate (delimiter : Delimiter) (h : PlacesMove f file file' before before')
    (rest : List Char) :
    ((Cursor.between before' rest).scan delimiter file').result =
      relocateTokens f ((Cursor.between before rest).scan delimiter file).result := by
  induction rest using lexemes_induction delimiter generalizing before before' with
  | nil =>
    rw [Cursor.scan_end, Cursor.scan_end]
    rfl
  | gap c cs blank ih =>
    have read : lexeme delimiter c cs = .gap := lexeme_eq_gap_iff.mpr blank
    rw [Cursor.scan_gap read, Cursor.scan_gap read]
    exact ih (h.behind [c])
  | token kind text raw after spelled ih =>
    rw [scan_of_spelled spelled, scan_of_spelled spelled, relocateTokens_add, ← ih (h.behind raw),
      h.here]
    rfl
  | failed c cs fault size read =>
    rw [Cursor.scan_failed read, Cursor.scan_failed read, h.here]
    rfl

end Tokens

/-! Reports. -/

/-- An error with its places moved. -/
def ParseError.relocate (f : Location → Location) (e : ParseError) : ParseError where
  fault := e.fault.relocate f
  ending := f e.ending

/-- An error with its places moved. -/
def CompileError.relocate (f : Location → Location) : CompileError → CompileError
  | .lexical e => .lexical (e.relocate f)
  | .syntactic e => .syntactic (e.relocate f)
  | .unsupported node => .unsupported (node.relocate f)

/-- A report with its place moved. -/
def Diagnostic.relocate (f : Location → Location) (d : Diagnostic) : Diagnostic :=
  { d with location := d.location.map f }

theorem ParseError.diagnostic_relocate (f : Location → Location) (e : ParseError) :
    (e.relocate f).diagnostic = e.diagnostic.relocate f := by
  obtain ⟨fault, ending⟩ := e
  cases fault <;> rfl

theorem Tree.location_relocate (f : Location → Location) (tree : Tree) :
    (tree.relocate f).location = tree.location.map f := by
  cases tree <;> rfl

theorem Tree.label_relocate (f : Location → Location) (tree : Tree) :
    (tree.relocate f).label = tree.label := by
  cases tree <;> rfl

/-- Moving the places of an error moves the place of its report and changes nothing else in it. -/
theorem CompileError.diagnostic_relocate (f : Location → Location) (e : CompileError) :
    (e.relocate f).diagnostic = e.diagnostic.relocate f := by
  cases e with
  | lexical e => rfl
  | syntactic e => exact ParseError.diagnostic_relocate f e
  | unsupported node =>
    simp [relocate, diagnostic, unsupportedDiagnostic, Diagnostic.relocate, Tree.location_relocate,
      Tree.label_relocate]

end XoLang
