import XoLang.Proofs.SyntaxFaults

/-!
# What tokens can still become

Tokens are viable when more tokens behind them can make a program. Whoever reads tokens that are no
program gets stuck at one of them, and what stands in front of it is viable. The reason says the
rest: either the whole list is viable, because it only ends too early, or every longer list is
refused for the same reason at the same place.

The body of a declaration ends with its line. A call that is still open there stays open, so a
line end behind it leaves nothing to hope for.
-/

namespace XoLang

/-- The line that is open behind some tokens has a declaration. -/
def OnLetLine (front : List Token) : Prop :=
  ∃ early word line, front = early ++ word :: line ∧ (word.kind = .name ∧ word.text = "let") ∧
    ∀ t ∈ line, t.kind ≠ .newline

/-- What starts behind `front` is cut off by the line end of a declaration. -/
def CutOff (front back : List Token) : Prop := OnLetLine front ∧ ∃ t ∈ back, t.kind = .newline

/-- A fault that more tokens can mend. -/
def Mendable (front back : List Token) : ParseFault → Prop
  | .missing _ => True
  | .unclosedCall _ => ¬ CutOff front back
  | .notCalled name => Naming name ∧ back = []
  | _ => False

/-! Tokens that go on. -/

/-- Some continuation of the tokens, on the same line, has a derivation. -/
def Continuable (context : Context) (tokens : List Token) : Prop :=
  ∃ more nodes, (∀ t ∈ more, t.kind ≠ .newline) ∧ Items context (tokens ++ more) nodes

namespace Continuable

variable {context : Context} {tokens : List Token}

theorem nil (context : Context) : Continuable context [] := ⟨[], [], by simp, .empty⟩

theorem single {u : Token} {node : Option Tree} (h : Continuable context tokens)
    (first : Single context u node) : Continuable context (u :: tokens) := by
  obtain ⟨more, nodes, oneLine, derived⟩ := h
  exact ⟨more, _, oneLine, .single first derived⟩

theorem call {name paren close : Token} {inner : List Token} {params : List Tree}
    (h : Continuable context tokens) (naming : Naming name) (opens : paren.kind = .parenOpen)
    (inside : Items .arguments inner params) (closes : close.kind = .parenClose) :
    Continuable context (name :: paren :: (inner ++ close :: tokens)) := by
  obtain ⟨more, nodes, oneLine, derived⟩ := h
  have joined := Items.call naming opens inside closes derived
  exact ⟨more, _, oneLine, by simpa using joined⟩

theorem line {word name equals newline : Token} {front : List Token} {body : List Tree}
    (h : Continuable .statement tokens) (keyword : word.kind = .name ∧ word.text = "let")
    (naming : Naming name) (binds : equals.kind = .equals)
    (oneLine : ∀ t ∈ front, t.kind ≠ .newline) (inside : Items .assignment front body)
    (lineEnd : newline.kind = .newline) :
    Continuable .statement (word :: name :: equals :: (front ++ newline :: tokens)) := by
  obtain ⟨more, nodes, sameLine, derived⟩ := h
  have ends : EndsLine (newline :: (tokens ++ more)) := stopsAt_cons (by simp [lineEnd]) _
  have joined := Items.declaration keyword naming binds oneLine ends inside
    (.single (.newline lineEnd) derived)
  exact ⟨more, _, sameLine, by simpa using joined⟩

/-- An open call can be closed. -/
theorem openCall {name paren : Token} (h : Continuable .arguments tokens) (naming : Naming name)
    (opens : paren.kind = .parenOpen) : Continuable context (name :: paren :: tokens) := by
  obtain ⟨more, params, oneLine, inside⟩ := h
  have closes : (tokenAt .parenClose ")").kind = .parenClose := rfl
  have closed := Items.call naming opens inside closes (.empty : Items context [] [])
  refine ⟨more ++ [tokenAt .parenClose ")"], _, ?_, by simpa using closed⟩
  intro t mem
  rcases List.mem_append.mp mem with mem | mem
  · exact oneLine t mem
  · obtain rfl := List.mem_singleton.mp mem
    simp [tokenAt]

/-- An open line can be ended. -/
theorem openLine {word name equals : Token} (h : Continuable .assignment tokens)
    (keyword : word.kind = .name ∧ word.text = "let") (naming : Naming name)
    (binds : equals.kind = .equals) (oneLine : ∀ t ∈ tokens, t.kind ≠ .newline) :
    Continuable .statement (word :: name :: equals :: tokens) := by
  obtain ⟨more, body, sameLine, inside⟩ := h
  have whole : ∀ t ∈ tokens ++ more, t.kind ≠ .newline :=
    List.forall_mem_append.mpr ⟨oneLine, sameLine⟩
  have ended := Items.declaration keyword naming binds whole (stopsAt_nil _) inside .empty
  exact ⟨more, _, sameLine, by simpa using ended⟩

/-- A name can be called. -/
theorem behindName {name : Token} (naming : Naming name) : Continuable context [name] := by
  have opens : (tokenAt .parenOpen "(").kind = .parenOpen := rfl
  obtain ⟨more, nodes, oneLine, derived⟩ : Continuable context [name, tokenAt .parenOpen "("] :=
    (nil .arguments).openCall naming opens
  exact ⟨tokenAt .parenOpen "(" :: more, nodes, by simpa [tokenAt] using oneLine, derived⟩

/-- A declaration can go on behind its variable. -/
theorem behindVariable {word name : Token} (keyword : word.kind = .name ∧ word.text = "let")
    (naming : Naming name) : Continuable .statement [word, name] := by
  have binds : (tokenAt .equals "=").kind = .equals := rfl
  obtain ⟨more, nodes, oneLine, derived⟩ :=
    (nil .assignment).openLine keyword naming binds (by simp)
  exact ⟨tokenAt .equals "=" :: more, nodes, by simpa [tokenAt] using oneLine, derived⟩

/-- A declaration can go on behind its word. -/
theorem behindWord {word : Token} (keyword : word.kind = .name ∧ word.text = "let") :
    Continuable .statement [word] := by
  have naming : Naming (tokenAt .name "x") := ⟨rfl, by decide⟩
  obtain ⟨more, nodes, oneLine, derived⟩ := behindVariable keyword naming
  exact ⟨tokenAt .name "x" :: more, nodes, by simpa [tokenAt] using oneLine, derived⟩

end Continuable

/-! Which line a token stands on. -/

theorem onLetLine_cons {u : Token} {front : List Token} :
    OnLetLine (u :: front) ↔
      ((u.kind = .name ∧ u.text = "let") ∧ ∀ t ∈ front, t.kind ≠ .newline) ∨ OnLetLine front := by
  constructor
  · rintro ⟨early, word, line, split, keyword, oneLine⟩
    cases early with
    | nil =>
      obtain ⟨rfl, rfl⟩ := List.cons.inj split
      exact Or.inl ⟨keyword, oneLine⟩
    | cons v early =>
      obtain ⟨-, split⟩ := List.cons.inj split
      exact Or.inr ⟨early, word, line, split, keyword, oneLine⟩
  · rintro (⟨keyword, oneLine⟩ | ⟨early, word, line, rfl, keyword, oneLine⟩)
    · exact ⟨[], u, front, rfl, keyword, oneLine⟩
    · exact ⟨u :: early, word, line, rfl, keyword, oneLine⟩

theorem not_onLetLine_nil : ¬ OnLetLine [] := by
  rintro ⟨early, word, line, split, -⟩
  simp at split

theorem onLetLine_append {used front : List Token}
    (free : ∀ t ∈ used, ¬ (t.kind = .name ∧ t.text = "let")) :
    OnLetLine (used ++ front) ↔ OnLetLine front := by
  induction used with
  | nil => rfl
  | cons u used ih =>
    obtain ⟨first, others⟩ := List.forall_mem_cons.mp free
    rw [List.cons_append, onLetLine_cons, ih others]
    simp [first]

/-- Behind a line end a new line starts. -/
theorem onLetLine_behind_newline {newline : Token} (lineEnd : newline.kind = .newline)
    (used front : List Token) : OnLetLine (used ++ newline :: front) ↔ OnLetLine front := by
  induction used with
  | nil =>
    rw [List.nil_append, onLetLine_cons]
    simp [lineEnd]
  | cons u used ih =>
    rw [List.cons_append, onLetLine_cons, ih]
    constructor
    · rintro (⟨-, oneLine⟩ | onLine)
      · exact absurd lineEnd (oneLine newline (by simp))
      · exact onLine
    · exact Or.inr

theorem Items.not_keyword {context : Context} {tokens : List Token} {nodes : List Tree}
    (h : Items context tokens nodes) (inside : context ≠ .statement) :
    ∀ t ∈ tokens, ¬ (t.kind = .name ∧ t.text = "let") := by
  induction h with
  | empty => simp
  | single item _ ih => exact List.forall_mem_cons.mpr ⟨item.not_keyword, ih inside⟩
  | call naming opens _ closes _ ihInside ih =>
    simp only [List.forall_mem_cons, List.forall_mem_append]
    exact ⟨naming.not_keyword, by simp [opens], ihInside (by simp), by simp [closes], ih inside⟩
  | declaration => exact absurd rfl inside

theorem onLetLine_single {context : Context} {u : Token} {node : Option Tree} {front : List Token}
    (single : Single context u node) : OnLetLine (u :: front) ↔ OnLetLine front := by
  rw [onLetLine_cons]
  simp only [single.not_keyword, false_and, false_or]

theorem onLetLine_openCall {name paren : Token} {front : List Token} (naming : Naming name)
    (opens : paren.kind = .parenOpen) : OnLetLine (name :: paren :: front) ↔ OnLetLine front := by
  rw [onLetLine_cons, onLetLine_cons]
  simp [naming.not_keyword, opens]

theorem onLetLine_call {name paren close : Token} {inner front : List Token} {params : List Tree}
    (naming : Naming name) (opens : paren.kind = .parenOpen)
    (inside : Items .arguments inner params) (closes : close.kind = .parenClose) :
    OnLetLine (name :: paren :: (inner ++ close :: front)) ↔ OnLetLine front := by
  rw [onLetLine_openCall naming opens, onLetLine_append (inside.not_keyword (by simp)),
    onLetLine_cons]
  simp [closes]

/-! What more tokens can mend. -/

theorem mendable_congr {front other back : List Token} (same : OnLetLine front ↔ OnLetLine other)
    (fault : ParseFault) : Mendable front back fault ↔ Mendable other back fault := by
  cases fault <;> simp [Mendable, CutOff, same]

/-- Where no line end follows, no line matters. -/
theorem mendable_of_oneLine {back : List Token} (oneLine : ∀ t ∈ back, t.kind ≠ .newline)
    (front other : List Token) (fault : ParseFault) :
    Mendable front back fault ↔ Mendable other back fault := by
  have uncut : ∀ early, ¬ CutOff early back := by
    rintro early ⟨-, t, mem, kind⟩
    exact oneLine t mem kind
  cases fault <;> simp [Mendable, uncut]

section Places

variable {context : Context} {front back : List Token} {t : Token} {fault : ParseFault}

theorem Blocked.token?_cases (h : Blocked context front t back fault) :
    fault.token? = some t ∨
      (context = .statement ∧ (∃ what, fault = .missing what) ∧ back = []) := by
  cases h with
  | noVariable | noEquals => exact Or.inr ⟨rfl, ⟨_, rfl⟩, rfl⟩
  | _ => exact Or.inl rfl

/-- A fault names the token at which reading is stuck, or the tokens end there. -/
theorem Stuck.token?_cases (h : Stuck context front t back fault) :
    fault.token? = some t ∨
      (context = .statement ∧ (∃ what, fault = .missing what) ∧ back = []) := by
  induction h with
  | here blocked => exact blocked.token?_cases
  | unclosed => exact Or.inl rfl
  | inCall _ _ _ ih =>
    rcases ih with named | ⟨outside, -⟩
    · exact Or.inl named
    · cases outside
  | inBody _ _ _ _ _ _ ih =>
    rcases ih with named | ⟨outside, -⟩
    · exact Or.inl named
    · cases outside
  | afterSingle _ _ ih => exact ih
  | afterCall _ _ _ _ _ ih => exact ih
  | afterLine _ _ _ _ _ _ _ ih => exact ih

theorem Blocked.append (h : Blocked context front t back fault)
    (hopeless : ¬ Mendable front back fault) (more : List Token) :
    Blocked context front t (back ++ more) fault := by
  cases h with
  | comment kind => exact .comment kind
  | nested keyword inside => exact .nested keyword inside
  | notCalled naming uncalled =>
    cases back with
    | nil => exact absurd ⟨naming, rfl⟩ hopeless
    | cons u back => exact .notCalled naming (uncalled.cons_append more)
  | unexpected kind unopened => exact .unexpected kind unopened
  | noVariable | noEquals => exact absurd trivial hopeless
  | noName keyword kind => exact .noName keyword kind
  | reserved keyword kind taken => exact .reserved keyword kind taken
  | otherThanEquals keyword naming kind => exact .otherThanEquals keyword naming kind

/-- What is not mendable stays stuck, whatever follows. -/
theorem Stuck.append (h : Stuck context front t back fault) (hopeless : ¬ Mendable front back fault)
    (more : List Token) : Stuck context front t (back ++ more) fault := by
  induction h generalizing more with
  | here blocked => exact .here (blocked.append hopeless more)
  | unclosed => exact absurd (fun cut : CutOff [] _ => not_onLetLine_nil cut.1) hopeless
  | inCall naming opens _ ih =>
    refine .inCall naming opens (ih ?_ more)
    exact mt (mendable_congr (onLetLine_openCall naming opens) _).mpr hopeless
  | @inBody word name equals t front back rest fault keyword naming binds oneLine ends inside ih =>
    cases rest with
    | nil =>
      -- What follows up to the next line end still belongs to the body.
      obtain ⟨before, behind⟩ := List.forall_mem_append.mp oneLine
      obtain ⟨here, later⟩ := List.forall_mem_cons.mp behind
      rw [List.append_nil] at hopeless ⊢
      have inBody := mt (mendable_of_oneLine later _ front _).mpr hopeless
      obtain ⟨rest, split, sameLine, ends⟩ := exists_takeWhile_append (·.kind != .newline) more
      have whole : ∀ u ∈ front ++ t :: (back ++ restOfLine more), u.kind ≠ .newline := by
        simp only [List.forall_mem_append, List.forall_mem_cons]
        exact ⟨before, here, later, fun u mem => by simpa using sameLine u mem⟩
      have longer : back ++ more = back ++ restOfLine more ++ rest := by
        rw [List.append_assoc]
        exact congrArg _ split
      rw [longer]
      exact .inBody keyword naming binds whole ends (ih inBody _)
    | cons newline rest =>
      rw [List.append_assoc]
      exact .inBody keyword naming binds oneLine (StopsAt.cons_append ends more) inside
  | afterSingle single _ ih =>
    refine .afterSingle single (ih ?_ more)
    exact mt (mendable_congr (onLetLine_single single) _).mpr hopeless
  | afterCall naming opens inside closes _ ih =>
    refine .afterCall naming opens inside closes (ih ?_ more)
    exact mt (mendable_congr (onLetLine_call naming opens inside closes) _).mpr hopeless
  | @afterLine word name equals newline t line front back body fault keyword naming binds oneLine
      inside lineEnd _ ih =>
    have same := onLetLine_behind_newline lineEnd (word :: name :: equals :: line) front
    refine .afterLine keyword naming binds oneLine inside lineEnd (ih ?_ more)
    exact mt (mendable_congr same _).mpr hopeless

end Places

/-! Reports. -/

theorem parseTokens_eq_error_iff {file : String} {tokens : List Token} {e : ParseError} :
    parseTokens file tokens = .error e ↔
      (∃ front t back, tokens = front ++ t :: back ∧ Stuck .statement front t back e.fault) ∧
        e.ending = endLocation file tokens := by
  rw [← sequence_failed_iff, parseTokens]
  constructor
  · intro h
    split at h
    · cases h
    · rename_i fault taken failed
      cases h
      exact ⟨⟨taken, failed⟩, rfl⟩
  · rintro ⟨⟨taken, failed⟩, ending⟩
    rw [failed, ← ending]

theorem ParseError.diagnostic_of_token? {e : ParseError} {t : Token}
    (named : e.fault.token? = some t) :
    e.diagnostic = .syntactic e.fault.message (some t.location) (some t.kind.label) := by
  rw [diagnostic, ParseFault.diagnostic, named]

section Refusing

variable {file : String} {front back : List Token} {t : Token} {fault : ParseFault}

theorem Stuck.parseTokens_error (h : Stuck .statement front t back fault) (file : String) :
    parseTokens file (front ++ t :: back) =
      .error ⟨fault, endLocation file (front ++ t :: back)⟩ :=
  parseTokens_eq_error_iff.mpr ⟨⟨front, t, back, rfl, h⟩, rfl⟩

/-- What is not mendable is refused with one report, whatever follows. -/
theorem Stuck.refused (h : Stuck .statement front t back fault)
    (hopeless : ¬ Mendable front back fault) (more : List Token) :
    ∃ later, parseTokens file (front ++ t :: back ++ more) = .error later ∧
      later.diagnostic = .syntactic fault.message (some t.location) (some t.kind.label) := by
  have named : fault.token? = some t := by
    rcases h.token?_cases with named | ⟨-, ⟨what, rfl⟩, -⟩
    · exact named
    · exact absurd trivial hopeless
  have later := (h.append hopeless more).parseTokens_error file
  rw [List.append_assoc, List.cons_append]
  exact ⟨_, later, ParseError.diagnostic_of_token? named⟩

end Refusing

end XoLang
