import XoLang.Proofs.Dumps
import XoLang.Proofs.Shape
import XoLang.Proofs.Spreading

/-!
# Reading generated code

Generated code can be compiled again and stays as it is. The tokens of a program without block
comments are written down (`Tree.words`); the characters of its text are these tokens, and from
these tokens the grammar derives the program, each wherever it stands. A program with block comments
has the text of one without.
-/

namespace XoLang

open JavaScript

/-- The delimiter of the strings in generated code. -/
def Delimiter.double : Delimiter := ⟨.char '"', by decide⟩

namespace Tree

/-- A tree that comes from no source. -/
def unplaced (tree : Tree) : Tree := tree.relocate fun _ => nowhere

theorem unplaced_call (name : String) (params : List Tree) (location : Location) :
    (call name params (some location)).unplaced =
      .call name (params.map unplaced) (some nowhere) := by
  rw [unplaced, relocate, relocateAll_eq_map]
  rfl

theorem unplaced_assignment (name : String) (body : List Tree) (location : Location) :
    (assignment name body (some location)).unplaced =
      .assignment name (body.map unplaced) (some nowhere) := by
  rw [unplaced, relocate, relocateAll_eq_map]
  rfl

end Tree

/-! The grammar derives a tree from its tokens. -/

section Grammar

variable {blocks : Prop} {context : Context} {trees : List Tree} {tree : Tree}

theorem Stands.shaped (h : Stands blocks context tree) : Shaped context tree := by
  induction h with
  | number => exact .number
  | string => exact .string
  | boolean isWord => exact .boolean isWord
  | comment allowed => exact .comment allowed
  | commentBlock allowed => exact .commentBlock allowed
  | newline => exact .newline
  | call _ free _ ih => exact .call free ih
  | assignment _ free _ _ _ ih => exact .assignment free ih

theorem Stands.unplaced_eq (h : Stands blocks context tree) :
    tree.unplaced = tree.placed nowhere := by
  induction h with
  | number | string | boolean | comment | commentBlock | newline => rfl
  | call _ _ _ ih =>
    rw [Tree.unplaced_call, Tree.placed, Tree.placedAll_eq_map, List.map_congr_left ih]
  | assignment _ _ _ _ _ ih =>
    rw [Tree.unplaced_assignment, Tree.placed, Tree.placedAll_eq_map, List.map_congr_left ih]

theorem derives_unplaced (stands : ∀ tree ∈ trees, Stands blocks .statement tree)
    (order : trees.IsChain Follows) :
    Items .statement (trees.map Tree.words).flatten (trees.map Tree.unplaced) := by
  have lines : Tree.AssignmentsEnd trees :=
    order.imp fun a b follows assigned => follows.1 (Tree.endsLine_of_isAssignment assigned)
  have derived := derives_all (fun tree mem => (stands tree mem).shaped.derives) lines
  rwa [← List.map_congr_left fun tree mem => (stands tree mem).unplaced_eq] at derived

theorem Stands.endsLine_arguments {tree : Tree} (h : Stands blocks .arguments tree) :
    tree.endsLine = false := by
  cases h <;> first | rfl | exact absurd rfl ‹Context.arguments ≠ .arguments›

end Grammar

/-! The text of a tree is made of its tokens. -/

/-- Characters that are the given tokens wherever they stand. -/
def LexesTo (delimiter : Delimiter) (chars : List Char) (words : List Token) : Prop :=
  ∀ file before, ∃ tokens, Lexed delimiter file before chars tokens ∧
    tokens.map (·.relocate fun _ => nowhere) = words

section Lexing

variable {delimiter : Delimiter} {rest : List Char} {words : List Token}

theorem lexesTo_nil (delimiter : Delimiter) : LexesTo delimiter [] [] :=
  fun _ _ => ⟨[], .done (by simp [Gap]), rfl⟩

theorem LexesTo.blank (h : LexesTo delimiter rest words) :
    LexesTo delimiter (' ' :: rest) words := by
  intro file before
  obtain ⟨tokens, lexed, same⟩ := h file (before ++ [' '])
  exact ⟨tokens, lexed.gap (by decide), same⟩

theorem LexesTo.spelled {kind : TokenKind} {text raw : List Char} (h : LexesTo delimiter rest words)
    (spelled : Spelled delimiter kind text raw rest) :
    LexesTo delimiter (raw ++ rest) (word kind (String.ofList text) :: words) := by
  intro file before
  obtain ⟨tokens, lexed, rfl⟩ := h file (before ++ raw)
  exact ⟨_, .spelled spelled lexed, rfl⟩

theorem LexesTo.name {name : String} (h : LexesTo delimiter rest words)
    (identifier : Identifier name.toList) (ends : StopsAt isNamePart rest) :
    LexesTo delimiter (name.toList ++ rest) (word .name name :: words) := by
  obtain ⟨c, cs, chars, first, more⟩ := identifier
  have lexes := h.spelled (.name first more ends)
  rwa [← chars, String.ofList_toList] at lexes

theorem LexesTo.mark {c : Char} {kind : TokenKind} (h : LexesTo delimiter rest words)
    (mark : (c, kind) ∈ punctuationMarks) :
    LexesTo delimiter (c :: rest) (word kind (String.ofList [c]) :: words) :=
  h.spelled (.punctuation mark)

theorem numberEnds_of_stopsAt (h : StopsAt isNamePart rest) : NumberEnds rest := by
  constructor
  · rintro c more rfl
    have part := h c more rfl
    simp only [isNamePart, Bool.or_eq_false_iff] at part
    exact part.1.2
  · rintro more rfl
    exact absurd (h '_' more rfl) (by decide)

theorem digitGroups_of_digits {groups : List Char} (h : ∀ c ∈ groups, isDigit c = true) :
    DigitGroups groups := by
  induction groups with
  | nil => exact .done
  | cons c groups ih =>
    obtain ⟨first, rest⟩ := List.forall_mem_cons.mp h
    exact .digit first (ih rest)

theorem LexesTo.number {text : String} (h : LexesTo delimiter rest words)
    (digits : Numeral text.toList) (ends : StopsAt isNamePart rest) :
    LexesTo delimiter (text.toList ++ rest) (word .number text :: words) := by
  obtain ⟨nonempty, digits⟩ := digits
  have unchanged : text.toList.filter (· != '_') = text.toList :=
    List.filter_eq_self.mpr fun c mem => by simpa using ne_underscore_of_isDigit (digits c mem)
  cases chars : text.toList with
  | nil => exact absurd chars nonempty
  | cons c cs =>
    rw [chars] at digits unchanged
    obtain ⟨first, more⟩ := List.forall_mem_cons.mp digits
    have groups := digitGroups_of_digits more
    have lexes := h.spelled (.number first groups (numberEnds_of_stopsAt ends))
    rwa [unchanged, ← chars, String.ofList_toList, chars] at lexes

theorem plainEscape_of_plain {c : Char} (h : c ≠ '"' ∧ c ≠ '\\' ∧ 0x20 ≤ c.toNat) :
    Json.plainEscape c = [c] := by
  obtain ⟨notQuote, notBackslash, high⟩ := h
  have notFeed : c ≠ '\n' ∧ c ≠ '\r' ∧ c ≠ '\t' := by
    refine ⟨?_, ?_, ?_⟩ <;> rintro rfl <;> exact absurd high (by decide)
  have notControl : c.toNat ≠ 0x0c ∧ c.toNat ≠ 0x08 ∧ ¬ c.toNat < 0x20 := by omega
  have short : Json.shortEscape? c = none := by
    simp [Json.shortEscape?, notQuote, notBackslash, notFeed, notControl]
  simp [Json.plainEscape, short, notControl]

theorem LexesTo.string {text : String} (h : LexesTo .double rest words)
    (plain : Tree.PlainText text.toList) :
    LexesTo .double ((Json.plainText text).toList ++ rest) (word .string text :: words) := by
  have closed : '"' ∉ text.toList := fun mem => (plain '"' mem).1 rfl
  have chars : text.toList.flatMap Json.plainEscape = text.toList := by
    have same : text.toList.flatMap Json.plainEscape = text.toList.flatMap fun c => [c] :=
      List.flatMap_congr fun c mem => plainEscape_of_plain (plain c mem)
    rw [same, List.flatMap_singleton']
  have quoted : (Json.plainText text).toList = '"' :: (text.toList ++ ['"']) := by
    rw [Json.plainText, String.toList_ofList, Json.textChars, chars]
  have lexes := h.spelled (.string rfl closed)
  rwa [← quoted, String.ofList_toList] at lexes

end Lexing

/-- What may follow the text of a tree: a comment and an assignment end the line, and no other text
goes on. -/
structure Closes (tree : Tree) (rest : List Char) : Prop where
  line : tree.endsLine = true → StopsAt (· != '\n') rest
  text : tree.isLayout = false → StopsAt isNamePart rest

/-- In front of characters that may follow, the text of a tree is the tokens of the tree. -/
def Prints (tree : Tree) : Prop :=
  ∀ rest words, Closes tree rest → LexesTo .double rest words →
    LexesTo .double ((render tree).toList ++ rest) (tree.words ++ words)

section Printing

variable {context : Context} {trees : List Tree} {rest : List Char} {words : List Token}

theorem closes_of_stopsAt (tree : Tree) (ends : StopsAt (· != '\n') rest) : Closes tree rest := by
  refine ⟨fun _ => ends, fun _ => ?_⟩
  rintro c more rfl
  obtain rfl : c = '\n' := by simpa using ends c more rfl
  decide

theorem toList_render_newline (location : Option Location) :
    (render (.newline location)).toList = ['\n'] := by
  simp [render]

theorem toList_render_comment (text : String) (location : Option Location) :
    (render (.leaf .comment text location)).toList = '/' :: '/' :: text.toList := by
  simp [render, leafText, lineComment]

theorem closes_of_follows {tree next : Tree} (h : Follows tree next)
    (notBlock : isBlock next = false) (more : List Char) :
    Closes tree ((render next).toList ++ more) := by
  by_cases newline : isNewline next = true
  · obtain ⟨location, rfl⟩ := exists_of_isNewline newline
    rw [toList_render_newline]
    exact closes_of_stopsAt tree (stopsAt_cons (by decide) more)
  refine ⟨fun ends => absurd (h.1 ends) newline, fun notLayout => ?_⟩
  have layout : next.isLayout = true := h.2.resolve_left (by simp [notLayout])
  -- What is left of layout is a line comment, and a slash goes on with nothing.
  cases next with
  | leaf kind text location =>
    cases kind with
    | comment =>
      rw [toList_render_comment]
      exact stopsAt_cons (by decide) _
    | commentBlock => cases notBlock
    | number | string | boolean => cases layout
  | newline => exact absurd rfl newline
  | assignment | call | program | bare | foreign => cases layout

theorem prints_all (prints : ∀ tree ∈ trees, Prints tree) (order : trees.IsChain Follows)
    (noBlocks : ∀ tree ∈ trees, isBlock tree = false) (ends : StopsAt (· != '\n') rest)
    (h : LexesTo .double rest words) :
    LexesTo .double (charsOf trees ++ rest) ((trees.map Tree.words).flatten ++ words) := by
  induction trees with
  | nil => exact h
  | cons tree trees ih =>
    obtain ⟨first, prints⟩ := List.forall_mem_cons.mp prints
    obtain ⟨next, order⟩ := List.isChain_cons.mp order
    obtain ⟨-, noBlocks⟩ := List.forall_mem_cons.mp noBlocks
    have closes : Closes tree (charsOf trees ++ rest) := by
      cases trees with
      | nil => exact closes_of_stopsAt tree ends
      | cons following trees =>
        have follows := closes_of_follows (next following rfl)
          (noBlocks following (by simp)) (charsOf trees ++ rest)
        simpa [charsOf] using follows
    have lexes := first _ _ closes (ih prints order noBlocks)
    simpa [charsOf] using lexes

theorem prints_separated (prints : ∀ tree ∈ trees, Prints tree)
    (inside : ∀ tree ∈ trees, tree.endsLine = false) (ends : StopsAt isNamePart rest)
    (h : LexesTo .double rest words) :
    LexesTo .double ((Text.join ", " (trees.map render)).toList ++ rest)
      (separated (trees.map Tree.words) ++ words) := by
  induction trees with
  | nil => exact h
  | cons tree trees ih =>
    obtain ⟨first, prints⟩ := List.forall_mem_cons.mp prints
    obtain ⟨inLine, inside⟩ := List.forall_mem_cons.mp inside
    cases trees with
    | nil => exact first _ _ ⟨by simp [inLine], fun _ => ends⟩ h
    | cons next trees =>
      have more := (ih prints inside).blank.mark (show (',', .comma) ∈ punctuationMarks by decide)
      have lexes := first _ _ ⟨by simp [inLine], fun _ => stopsAt_cons (by decide) _⟩ more
      simpa [Text.join, separated] using lexes

theorem identifier_of_boolean {text : String} (h : text = "true" ∨ text = "false") :
    Identifier text.toList := by
  rcases h with rfl | rfl
  · exact ⟨'t', ['r', 'u', 'e'], rfl, by decide, List.all_eq_true.mp (by decide)⟩
  · exact ⟨'f', ['a', 'l', 's', 'e'], rfl, by decide, List.all_eq_true.mp (by decide)⟩

/-- A tree without block comments prints its tokens. -/
theorem Stands.prints {tree : Tree} (h : Stands False context tree) : Prints tree := by
  induction h with
  | number digits => exact fun rest words closes h => h.number digits (closes.text rfl)
  | string plain => exact fun rest words _ h => h.string plain
  | boolean isWord =>
    exact fun rest words closes h => h.name (identifier_of_boolean isWord) (closes.text rfl)
  | comment _ oneLine =>
    intro rest words closes h
    have lexes := h.spelled (.comment oneLine (closes.line rfl))
    rw [String.ofList_toList] at lexes
    rw [toList_render_comment]
    exact lexes
  | commentBlock _ permitted => exact permitted.elim
  | newline =>
    intro rest words _ h
    rw [toList_render_newline]
    exact h.spelled .newline
  | @call context name params location identifier _ inside ih =>
    intro rest words _ h
    have closed := h.mark (show (')', .parenClose) ∈ punctuationMarks by decide)
    have args := prints_separated ih (fun tree mem => (inside tree mem).endsLine_arguments)
      (stopsAt_cons (by decide) rest) closed
    have opened := args.mark (show ('(', .parenOpen) ∈ punctuationMarks by decide)
    have lexes := opened.name identifier (stopsAt_cons (by decide) _)
    simpa [render, renderEach_eq_map, Tree.words, Tree.wordsEach_eq_map] using lexes
  | @assignment name body location identifier _ nonempty inside order ih =>
    intro rest words closes h
    have noBlocks : ∀ tree ∈ body, isBlock tree = false :=
      fun tree mem => (inside tree mem).not_block not_false
    have line := prints_all ih order noBlocks (closes.line rfl) h
    have bound := line.blank.mark (show ('=', .equals) ∈ punctuationMarks by decide)
    have named := bound.blank.name identifier (stopsAt_cons (by decide) _)
    have keyword : Identifier "let".toList :=
      ⟨'l', ['e', 't'], rfl, by decide, List.all_eq_true.mp (by decide)⟩
    have lexes := named.blank.name keyword (stopsAt_cons (by decide) _)
    rw [toList_render_assignment nonempty, toList_renderAll_of_not_block noBlocks]
    simpa [Tree.words, Tree.wordsEach_eq_map] using lexes

end Printing

/-! Reading the text of a program. -/

/-- Characters that are tokens, from which a program is derived, are read as that program. -/
theorem parse_of_lexesTo {delimiter : Delimiter} {code : String} {words : List Token}
    {nodes : List Tree} (lexes : LexesTo delimiter code.toList words)
    (derived : Items .statement words nodes) (file : String) :
    ∃ body, parse delimiter file code = .ok (.program body (some (.start file))) ∧
      body.map Tree.unplaced = nodes := by
  obtain ⟨tokens, lexed, rfl⟩ := lexes file []
  obtain ⟨taken, read⟩ := sequence_statement_iff.mpr derived
  -- Reading does not look at places: the tokens of the source are read as those without places.
  have moved := (read_relocate (fun _ => nowhere) tokens).2 .statement
  rw [read] at moved
  cases alone : sequence .statement tokens with
  | failed fault taken =>
    rw [alone] at moved
    cases moved
  | read body taken =>
    rw [alone] at moved
    cases moved
    have items := sequence_statement_iff.mp ⟨taken, alone⟩
    exact ⟨body, parse_eq_ok_iff.mpr ⟨tokens, body, lexed, items, rfl⟩, rfl⟩

section Programs

variable {trees : List Tree}

theorem parse_renderAll (stands : ∀ tree ∈ trees, Stands False .statement tree)
    (order : trees.IsChain Follows) {code : String} (chars : code.toList = charsOf trees)
    (file : String) :
    ∃ body, parse .double file code = .ok (.program body (some (.start file))) ∧
      body.map Tree.unplaced = trees.map Tree.unplaced := by
  have noBlocks : ∀ tree ∈ trees, isBlock tree = false :=
    fun tree mem => (stands tree mem).not_block not_false
  have lexes := prints_all (fun tree mem => (stands tree mem).prints) order noBlocks (stopsAt_nil _)
    (lexesTo_nil .double)
  rw [List.append_nil, List.append_nil, ← chars] at lexes
  exact parse_of_lexesTo lexes (derives_unplaced stands order) file

theorem renderAll_eq_of_unplaced_eq {others : List Tree}
    (h : trees.map Tree.unplaced = others.map Tree.unplaced) :
    renderAll trees = renderAll others := by
  have same := congrArg renderAll h
  rwa [show Tree.unplaced = Tree.relocate fun _ => nowhere from rfl, renderAll_relocate,
    renderAll_relocate] at same

end Programs

/-! Equal up to places. -/

theorem unsupported?_of_firstUnsupported? {trees : List Tree} (h : firstUnsupported? trees = none) :
    ∀ tree ∈ trees, unsupported? tree = none := by
  induction trees with
  | nil => simp
  | cons tree trees ih =>
    rw [firstUnsupported?] at h
    split at h
    · cases h
    · rename_i first
      exact List.forall_mem_cons.mpr ⟨first, ih h⟩

theorem allAlike_of_map_eq {f : Tree → Tree} {trees others : List Tree}
    (each : ∀ tree ∈ trees, ∀ other, f tree = f other → tree.alike other = true)
    (h : trees.map f = others.map f) : Tree.allAlike trees others = true := by
  induction trees generalizing others with
  | nil =>
    cases others with
    | nil => rfl
    | cons => cases h
  | cons tree trees ih =>
    cases others with
    | nil => cases h
    | cons other others =>
      obtain ⟨first, rest⟩ := List.forall_mem_cons.mp each
      obtain ⟨same, h⟩ := List.cons.inj h
      rw [Tree.allAlike, first other same, ih rest h]
      rfl

/-- Trees of the language that differ in places only are equal up to places. -/
theorem Tree.alike_of_relocate_eq {f : Location → Location} {tree other : Tree}
    (known : tree.OfLanguage) (h : tree.relocate f = other.relocate f) :
    tree.alike other = true := by
  induction known generalizing other with
  | leaf kind text location =>
    cases other <;> simp_all [relocate, alike]
  | newline location =>
    cases other <;> simp_all [relocate, alike]
  | assignment _ ih =>
    cases other <;> simp only [relocate, relocateAll_eq_map, reduceCtorEq] at h
    simp only [assignment.injEq] at h
    simp only [alike, h.1, decide_true, Bool.true_and]
    exact allAlike_of_map_eq (fun tree mem other => ih tree mem) h.2.1
  | call _ ih =>
    cases other <;> simp only [relocate, relocateAll_eq_map, reduceCtorEq] at h
    simp only [call.injEq] at h
    simp only [alike, h.1, decide_true, Bool.true_and]
    exact allAlike_of_map_eq (fun tree mem other => ih tree mem) h.2.1
  | program _ ih =>
    cases other <;> simp only [relocate, relocateAll_eq_map, reduceCtorEq] at h
    simp only [program.injEq] at h
    simp only [alike]
    exact allAlike_of_map_eq (fun tree mem other => ih tree mem) h.1

/-- A tree with a rendering is of the language. -/
theorem Tree.ofLanguage_of_supported {tree : Tree} (supported : unsupported? tree = none) :
    tree.OfLanguage := by
  induction tree using Tree.induction with
  | leaf kind text location => exact .leaf kind text location
  | newline location => exact .newline location
  | assignment name body location ih =>
    have parts := unsupported?_of_firstUnsupported? supported
    exact .assignment fun tree mem => ih tree mem (parts tree mem)
  | call name params location ih =>
    have parts := unsupported?_of_firstUnsupported? supported
    exact .call fun tree mem => ih tree mem (parts tree mem)
  | program body location ih =>
    have parts := unsupported?_of_firstUnsupported? supported
    exact .program fun tree mem => ih tree mem (parts tree mem)
  | bare location => cases supported
  | foreign kind location => cases supported

theorem Tree.alike_of_unplaced_eq {tree other : Tree} (supported : unsupported? tree = none)
    (h : tree.unplaced = other.unplaced) : tree.alike other = true :=
  Tree.alike_of_relocate_eq (Tree.ofLanguage_of_supported supported) h

/-- Generated code reads back. The code of a readable program compiles to itself, whatever comments
the program has; if none of them is a block comment, the code is read as the program. -/
theorem compile_reads_back (delimiter : Delimiter) (file file' source : String) (tree : Tree)
    (parsed : parse delimiter file source = .ok tree) (readable : tree.Readable) :
    ∃ code, compile delimiter file source = .ok code ∧ compile .double file' code = .ok code ∧
      ((∀ text location, .leaf .commentBlock text location ∉ tree.nodes) →
        ∃ again, parse .double file' code = .ok again ∧ again.alike tree = true) := by
  obtain ⟨tokens, body, lexed, items, rfl⟩ := parse_eq_ok_iff.mp parsed
  have below : ∀ child ∈ body, ∀ node ∈ child.nodes,
      node ∈ (Tree.program body (some (.start file))).nodes :=
    fun child mem node inside => List.mem_cons_of_mem _ (Tree.mem_allNodes mem inside)
  have permitted : ∀ child ∈ body, ∀ node ∈ child.nodes, isBlock node = true →
      ∃ node ∈ (Tree.program body (some (.start file))).nodes, isBlock node = true :=
    fun child mem node inside block => ⟨node, below child mem node inside, block⟩
  have stands := items.stands lexed.fits lexed.commentsEnd
    (fun child mem => readable.below (below child mem)) permitted
  have order := items.follows (by simp) lexed.commentsEnd
    (readable.spaced _ (Tree.self_mem_nodes _))
  -- The code is the text of the settled program, and that program is what the code is read as.
  have settled := stands_settleAll stands
  have chars := charsOf_settleAll stands
  obtain ⟨body', parsed', same⟩ := parse_renderAll settled (follows_chain_settleAll stands order)
    chars.symm file'
  have fixed : renderAll body' = renderAll body := by
    have noBlocks : ∀ tree ∈ settleAll body, isBlock tree = false :=
      fun tree mem => (settled tree mem).not_block not_false
    rw [renderAll_eq_of_unplaced_eq same, ← String.toList_inj,
      toList_renderAll_of_not_block noBlocks, chars]
  refine ⟨renderAll body, ?_, ?_, ?_⟩
  · rw [compile_eq_map, parsed]
    rfl
  · rw [compile_eq_map, parsed', ← fixed]
    rfl
  · intro noBlock
    have noBlocks :
        ¬ ∃ node ∈ (Tree.program body (some (.start file))).nodes, isBlock node = true := by
      rintro ⟨node, mem, block⟩
      obtain ⟨text, location, rfl⟩ := exists_of_isBlock block
      exact noBlock text location mem
    rw [settleAll_eq_self stands noBlocks] at same
    refine ⟨_, parsed', Tree.alike_of_unplaced_eq (unsupported?_of_parse parsed') ?_⟩
    simp only [Tree.unplaced, Tree.relocate, Tree.relocateAll_eq_map, Option.map_some]
    rw [show Tree.relocate (fun _ => nowhere) = Tree.unplaced from rfl, same]

theorem quoted_string_reads_back :
    compile .default "a.xo" "'a'//b" = .ok "\"a\"//b" ∧
    compile .double "a.js" "\"a\"//b" = .ok "\"a\"//b" ∧
    ∃ again, parse .double "a.js" "\"a\"//b" = .ok again ∧
      again.alike (.program [.leaf .string "a" (some ⟨1, 1, "a.xo"⟩),
        .leaf .comment "b" (some ⟨1, 4, "a.xo"⟩)] (some (.start "a.xo"))) = true := by
  have string : Spelled .default .string ['a'] ['\'', 'a', '\''] ['/', '/', 'b'] :=
    .string rfl (by decide)
  have comment : Spelled .default .comment ['b'] ['/', '/', 'b'] [] :=
    .comment (by decide) (stopsAt_nil _)
  have lexed : Lexed .default "a.xo" [] "'a'//b".toList
      [⟨.string, "a", ⟨1, 1, "a.xo"⟩⟩, ⟨.comment, "b", ⟨1, 4, "a.xo"⟩⟩] :=
    .spelled string (.spelled comment (.done (by simp [Gap])))
  have items : Items .statement
      [⟨.string, "a", ⟨1, 1, "a.xo"⟩⟩, ⟨.comment, "b", ⟨1, 4, "a.xo"⟩⟩]
      [.leaf .string "a" (some ⟨1, 1, "a.xo"⟩), .leaf .comment "b" (some ⟨1, 4, "a.xo"⟩)] :=
    .single (.string rfl) (.single (.comment rfl (by simp)) .empty)
  have parsed := parse_eq_ok_iff.mpr ⟨_, _, lexed, items, rfl⟩
  have readable : Tree.Readable (.program [.leaf .string "a" (some ⟨1, 1, "a.xo"⟩),
      .leaf .comment "b" (some ⟨1, 4, "a.xo"⟩)] (some (.start "a.xo"))) := by
    constructor
    · intro text location mem
      obtain ⟨rfl, -⟩ : text = "a" ∧ location = some ⟨1, 1, "a.xo"⟩ := by
        simpa [Tree.nodes, Tree.allNodes] using mem
      simp [Tree.PlainText]
    · simp [Tree.nodes, Tree.allNodes]
    · simp [Tree.nodes, Tree.allNodes, Tree.body, Tree.isLayout]
  obtain ⟨code, compiled, fixed, back⟩ :=
    compile_reads_back .default "a.xo" "a.js" "'a'//b" _ parsed readable
  have known : compile .default "a.xo" "'a'//b" = .ok "\"a\"//b" := by
    rw [compile_eq_map, parsed]
    rfl
  obtain rfl : "\"a\"//b" = code := Except.ok.inj (known.symm.trans compiled)
  exact ⟨known, fixed, back (by simp [Tree.nodes, Tree.allNodes])⟩

end XoLang
