import XoLang.Proofs.Standing

/-!
# Block comments as lines

The text of a block comment is one line comment a line. So the text of a program is also the text
of another program, without block comments: each of them is spread over lines, and what follows one
in an assignment is no longer part of the assignment. `settleAll` gives that program. It stands as
programs do that were read, and it is the same program if there was no block comment.
-/

namespace XoLang

open JavaScript

/-- Line comments with line ends between them. -/
def commentLines (location : Option Location) : List (List Char) → List Tree
  | [] => []
  | [line] => [.leaf .comment (String.ofList line) location]
  | line :: lines =>
    .leaf .comment (String.ofList line) location :: .newline location ::
      commentLines location lines

/-- A tree, or the lines of a block comment. -/
def spreadOne : Tree → List Tree
  | .leaf .commentBlock text location => commentLines location (Text.pieces '\n' text.toList)
  | tree => [tree]

/-- The line end behind a block comment, unless one follows anyway. -/
def spreadBreak (tree : Tree) (following : List Tree) : List Tree :=
  match following with
  | [] => []
  | next :: _ => if isBlock tree && !isNewline next then [.newline tree.location] else []

/-- Trees that follow each other, block comments spread over lines. -/
def spread : List Tree → List Tree
  | [] => []
  | tree :: trees => spreadOne tree ++ spreadBreak tree trees ++ spread trees

/-- A tree; an assignment keeps what is left of its body on the first line. -/
def settle : Tree → List Tree
  | .assignment name body location =>
    .assignment name ((spread body).takeWhile (!isNewline ·)) location ::
      (spread body).dropWhile (!isNewline ·)
  | tree => [tree]

/-- The program without block comments that has the text of a program. -/
def settleAll (trees : List Tree) : List Tree := (spread trees).flatMap settle

/-! What is spread. -/

theorem spreadOne_of_not_block {tree : Tree} (h : isBlock tree = false) :
    spreadOne tree = [tree] := by
  cases tree with
  | leaf kind text location => cases kind <;> first | rfl | cases h
  | newline | assignment | call | program | bare | foreign => rfl

theorem spreadBreak_of_not_block {tree : Tree} (h : isBlock tree = false)
    (following : List Tree) : spreadBreak tree following = [] := by
  cases following <;> simp [spreadBreak, h]

theorem spread_cons_of_not_block {tree : Tree} (h : isBlock tree = false) (trees : List Tree) :
    spread (tree :: trees) = tree :: spread trees := by
  rw [spread, spreadOne_of_not_block h, spreadBreak_of_not_block h]
  rfl

theorem spread_eq_self {trees : List Tree} (h : ∀ tree ∈ trees, isBlock tree = false) :
    spread trees = trees := by
  induction trees with
  | nil => rfl
  | cons tree trees ih =>
    obtain ⟨first, rest⟩ := List.forall_mem_cons.mp h
    rw [spread_cons_of_not_block first, ih rest]

theorem pieces_ne_nil {α : Type} [DecidableEq α] (separator : α) (text : List α) :
    Text.pieces separator text ≠ [] := by
  induction text with
  | nil => simp [Text.pieces]
  | cons c text ih =>
    rw [Text.pieces]
    split
    · simp
    · split <;> simp

/-- The pieces of a text hold all of it but the separators. -/
theorem flatten_pieces {α : Type} [DecidableEq α] (separator : α) (text : List α) :
    (Text.pieces separator text).flatten = text.filter (· != separator) := by
  induction text with
  | nil => rfl
  | cons c text ih =>
    rw [Text.pieces]
    by_cases same : c = separator
    · rw [if_pos same, List.filter_cons_of_neg (by simp [same]), List.flatten_cons, ih]
      rfl
    · rw [if_neg same, List.filter_cons_of_pos (by simp [same]), ← ih]
      cases cut : Text.pieces separator text with
      | nil => exact absurd cut (pieces_ne_nil separator text)
      | cons piece rest => rfl

theorem mem_of_mem_pieces {α : Type} [DecidableEq α] {separator c : α} {text piece : List α}
    (h : piece ∈ Text.pieces separator text) (inside : c ∈ piece) : c ∈ text ∧ c ≠ separator := by
  have all : c ∈ (Text.pieces separator text).flatten := List.mem_flatten.mpr ⟨piece, h, inside⟩
  rw [flatten_pieces, List.mem_filter] at all
  simpa using all

theorem not_mem_of_mem_pieces {α : Type} [DecidableEq α] {separator : α} {text piece : List α}
    (h : piece ∈ Text.pieces separator text) : separator ∉ piece :=
  fun inside => (mem_of_mem_pieces h inside).2 rfl

/-- The lines of a block comment start with a comment. -/
theorem commentLines_pieces (location : Option Location) (text : List Char) :
    ∃ line more, commentLines location (Text.pieces '\n' text) =
      .leaf .comment (String.ofList line) location :: more := by
  cases cut : Text.pieces '\n' text with
  | nil => exact absurd cut (pieces_ne_nil '\n' text)
  | cons line lines =>
    cases lines with
    | nil => exact ⟨line, [], rfl⟩
    | cons next lines => exact ⟨line, _, rfl⟩

theorem mem_commentLines {location : Option Location} {lines : List (List Char)} {node : Tree}
    (h : node ∈ commentLines location lines) :
    node = .newline location ∨
      ∃ line ∈ lines, node = .leaf .comment (String.ofList line) location := by
  fun_induction commentLines location lines with
  | case1 => cases h
  | case2 line => exact Or.inr ⟨line, by simp, by simpa using h⟩
  | case3 line lines _ ih =>
    rcases List.mem_cons.mp h with rfl | h
    · exact Or.inr ⟨line, by simp, rfl⟩
    rcases List.mem_cons.mp h with rfl | h
    · exact Or.inl rfl
    rcases ih h with rfl | ⟨other, mem, rfl⟩
    · exact Or.inl rfl
    · exact Or.inr ⟨other, List.mem_cons_of_mem line mem, rfl⟩

theorem spreadBreak_cases (tree : Tree) (following : List Tree) :
    spreadBreak tree following = [] ∨
      (isBlock tree = true ∧ spreadBreak tree following = [.newline tree.location]) := by
  cases following with
  | nil => exact Or.inl rfl
  | cons next following =>
    rw [spreadBreak]
    split_ifs with needed
    · simp only [Bool.and_eq_true] at needed
      exact Or.inr ⟨needed.1, rfl⟩
    · exact Or.inl rfl

/-- A tree that comes out of spreading was there before, or it is a line of a block comment or a
line end behind one. -/
theorem mem_spread {trees : List Tree} {node : Tree} (h : node ∈ spread trees) :
    (node ∈ trees ∧ isBlock node = false) ∨
      ∃ text location, .leaf .commentBlock text location ∈ trees ∧
        (node = .newline location ∨
          ∃ line, '\n' ∉ line ∧ node = .leaf .comment (String.ofList line) location) := by
  induction trees with
  | nil => cases h
  | cons tree trees ih =>
    simp only [spread, List.mem_append] at h
    rcases h with (one | lineEnd) | rest
    · by_cases block : isBlock tree = true
      · obtain ⟨text, location, rfl⟩ := exists_of_isBlock block
        refine Or.inr ⟨text, location, by simp, ?_⟩
        rcases mem_commentLines one with rfl | ⟨line, mem, rfl⟩
        · exact Or.inl rfl
        · exact Or.inr ⟨line, not_mem_of_mem_pieces mem, rfl⟩
      · rw [Bool.not_eq_true] at block
        rw [spreadOne_of_not_block block, List.mem_singleton] at one
        subst one
        exact Or.inl ⟨by simp, block⟩
    · rcases spreadBreak_cases tree trees with nothing | ⟨block, newline⟩
      · rw [nothing] at lineEnd
        cases lineEnd
      · rw [newline, List.mem_singleton] at lineEnd
        obtain ⟨text, location, rfl⟩ := exists_of_isBlock block
        exact Or.inr ⟨text, location, by simp, Or.inl lineEnd⟩
    · rcases ih rest with ⟨mem, block⟩ | ⟨text, location, mem, shape⟩
      · exact Or.inl ⟨List.mem_cons_of_mem tree mem, block⟩
      · exact Or.inr ⟨text, location, List.mem_cons_of_mem tree mem, shape⟩

theorem isBlock_of_mem_spread {trees : List Tree} {node : Tree} (h : node ∈ spread trees) :
    isBlock node = false := by
  rcases mem_spread h with ⟨-, block⟩ | ⟨text, location, -, rfl | ⟨line, -, rfl⟩⟩
  · exact block
  · rfl
  · rfl

/-! The text stays the same. -/

/-- The characters of trees that are written one after another. -/
def charsOf (trees : List Tree) : List Char := trees.flatMap fun tree => (render tree).toList

theorem charsOf_append (trees others : List Tree) :
    charsOf (trees ++ others) = charsOf trees ++ charsOf others := List.flatMap_append

theorem toList_renderAll_of_not_block {trees : List Tree}
    (h : ∀ tree ∈ trees, isBlock tree = false) : (renderAll trees).toList = charsOf trees := by
  induction trees with
  | nil => rfl
  | cons tree trees ih =>
    obtain ⟨first, rest⟩ := List.forall_mem_cons.mp h
    have nothing : lineBreak tree trees = "" := by
      cases trees <;> simp [lineBreak, first]
    simp [renderAll, nothing, ih rest, charsOf]

theorem charsOf_commentLines (location : Option Location) (lines : List (List Char)) :
    charsOf (commentLines location lines) = (Text.join "\n" (lines.map lineComment)).toList := by
  fun_induction commentLines location lines with
  | case1 => rfl
  | case2 line => simp [charsOf, render, leafText, Text.join]
  | case3 line lines several ih =>
    cases lines with
    | nil => exact absurd rfl several
    | cons next lines =>
      simp only [charsOf, List.flatMap_cons] at ih ⊢
      rw [ih]
      simp [render, leafText, Text.join]

theorem charsOf_spreadOne (tree : Tree) : charsOf (spreadOne tree) = (render tree).toList := by
  by_cases block : isBlock tree = true
  · obtain ⟨text, location, rfl⟩ := exists_of_isBlock block
    rw [spreadOne, charsOf_commentLines, render, leafText]
  · rw [spreadOne_of_not_block (by simpa using block)]
    simp [charsOf]

theorem charsOf_spreadBreak (tree : Tree) (following : List Tree) :
    charsOf (spreadBreak tree following) = (lineBreak tree following).toList := by
  cases following with
  | nil => rfl
  | cons next following =>
    rw [spreadBreak, lineBreak]
    split_ifs <;> simp [charsOf, render]

theorem charsOf_spread (trees : List Tree) : charsOf (spread trees) = (renderAll trees).toList := by
  induction trees with
  | nil => rfl
  | cons tree trees ih =>
    rw [spread, charsOf_append, charsOf_append, charsOf_spreadOne, charsOf_spreadBreak, ih,
      renderAll, String.toList_append, String.toList_append]

/-! The order of the trees. -/

theorem follows_of_isNewline {b : Tree} (h : isNewline b = true) (a : Tree) : Follows a b := by
  obtain ⟨location, rfl⟩ := exists_of_isNewline h
  exact ⟨fun _ => rfl, Or.inr rfl⟩

theorem newline_follows (location : Option Location) (b : Tree) : Follows (.newline location) b :=
  ⟨by simp [Tree.endsLine], Or.inl rfl⟩

theorem follows_chain_commentLines (location : Option Location) (lines : List (List Char)) :
    (commentLines location lines).IsChain Follows := by
  fun_induction commentLines location lines with
  | case1 => exact .nil
  | case2 line => exact .singleton _
  | case3 line lines _ ih =>
    refine List.IsChain.cons (ih.cons fun next _ => newline_follows location next) ?_
    rintro next ⟨rfl⟩
    exact follows_of_isNewline rfl _

/-- What may come before some trees may also come before them when they are spread. -/
theorem follows_head_spread {a : Tree} {trees : List Tree}
    (h : ∀ next ∈ trees.head?, Follows a next) : ∀ next ∈ (spread trees).head?, Follows a next := by
  cases trees with
  | nil => simp [spread]
  | cons tree trees =>
    have first := h tree rfl
    by_cases block : isBlock tree = true
    · obtain ⟨text, location, rfl⟩ := exists_of_isBlock block
      obtain ⟨line, more, lines⟩ := commentLines_pieces location text.toList
      rw [spread, spreadOne, lines]
      rintro next ⟨rfl⟩
      exact ⟨fun ends => absurd (first.1 ends) (by simp [isNewline]), Or.inr rfl⟩
    · rw [spread_cons_of_not_block (by simpa using block)]
      rintro next ⟨rfl⟩
      exact first

/-- Behind a block comment that is spread comes a line end, if anything does. -/
theorem isNewline_head_behind_block {tree : Tree} (block : isBlock tree = true)
    (trees : List Tree) :
    ∀ next ∈ (spreadBreak tree trees ++ spread trees).head?, isNewline next = true := by
  cases trees with
  | nil => simp [spreadBreak, spread]
  | cons first trees =>
    rw [spreadBreak]
    by_cases newline : isNewline first = true
    · obtain ⟨location, rfl⟩ := exists_of_isNewline newline
      rw [if_neg (by simp [newline]), spread_cons_of_not_block rfl]
      rintro next ⟨rfl⟩
      rfl
    · rw [if_pos (by simp [block, newline])]
      rintro next ⟨rfl⟩
      rfl

theorem follows_chain_spread {trees : List Tree} (h : trees.IsChain Follows) :
    (spread trees).IsChain Follows := by
  induction trees with
  | nil => exact .nil
  | cons tree trees ih =>
    obtain ⟨first, rest⟩ := List.isChain_cons.mp h
    have more := ih rest
    by_cases block : isBlock tree = true
    · have lines : (spreadOne tree).IsChain Follows := by
        obtain ⟨text, location, rfl⟩ := exists_of_isBlock block
        exact follows_chain_commentLines location _
      have behind : (spreadBreak tree trees ++ spread trees).IsChain Follows := by
        rcases spreadBreak_cases tree trees with nothing | ⟨-, newline⟩
        · rw [nothing]
          exact more
        · rw [newline]
          exact more.cons fun next _ => newline_follows _ next
      rw [spread, List.append_assoc]
      exact lines.append behind fun last _ next head =>
        follows_of_isNewline (isNewline_head_behind_block block trees next head) last
    · rw [spread_cons_of_not_block (by simpa using block)]
      exact more.cons (follows_head_spread first)

/-! The trees stand. -/

section Standing

variable {blocks : Prop} {context : Context}

theorem Stands.body_eq_nil {tree : Tree} (h : Stands blocks context tree)
    (inside : context ≠ .statement) : tree.body = [] := by
  cases h <;> first | rfl | exact absurd rfl inside

/-- Apart from block comments and assignments a tree stands without block comments. -/
theorem Stands.without_blocks {tree : Tree} (h : Stands blocks context tree)
    (notBlock : isBlock tree = false) (noBody : tree.body = []) : Stands False context tree := by
  induction h with
  | number digits => exact .number digits
  | string plain => exact .string plain
  | boolean word => exact .boolean word
  | comment allowed oneLine => exact .comment allowed oneLine
  | commentBlock => cases notBlock
  | newline => exact .newline
  | call identifier free inside ih =>
    refine .call identifier free fun tree mem => ih tree mem ?_ ?_
    · have stands := inside tree mem
      cases stands <;> first | rfl | exact absurd rfl ‹Context.arguments ≠ .arguments›
    · exact (inside tree mem).body_eq_nil (by simp)
  | assignment _ _ nonempty => exact absurd noBody nonempty

theorem Stands.in_statement {tree : Tree} (h : Stands blocks .assignment tree) :
    Stands blocks .statement tree := by
  cases h with
  | number digits => exact .number digits
  | string plain => exact .string plain
  | boolean word => exact .boolean word
  | comment _ oneLine => exact .comment (by simp) oneLine
  | commentBlock _ permitted => exact .commentBlock (by simp) permitted
  | call identifier free inside => exact .call identifier free inside

/-- Spread trees stand where the trees stood, with line ends among them. -/
theorem stands_of_mem_spread {trees : List Tree} (h : ∀ tree ∈ trees, Stands blocks context tree)
    {node : Tree} (mem : node ∈ spread trees) :
    (∃ location, node = .newline (some location)) ∨
      (Stands blocks context node ∧ isBlock node = false) := by
  rcases mem_spread mem with ⟨mem, notBlock⟩ | ⟨text, location, mem, shape⟩
  · exact Or.inr ⟨h node mem, notBlock⟩
  · cases h _ mem with
    | @commentBlock _ _ location allowed _ =>
      rcases shape with rfl | ⟨line, oneLine, rfl⟩
      · exact Or.inl ⟨location, rfl⟩
      · exact Or.inr ⟨.comment allowed (by simpa using oneLine), rfl⟩

/-! Assignments. -/

theorem Stands.not_newline {tree : Tree} (h : Stands blocks context tree)
    (inside : context ≠ .statement) : isNewline tree = false := by
  cases h <;> first | rfl | exact absurd rfl inside

theorem settle_eq_self {tree : Tree} (noBody : tree.body = []) : settle tree = [tree] := by
  cases tree with
  | assignment name body location =>
    obtain rfl : body = [] := noBody
    rfl
  | leaf | newline | call | program | bare | foreign => rfl

section Body

variable {name : String} {body : List Tree} {location : Option Location}

/-- Something is left of a body on the first line. -/
theorem spread_line_ne_nil (nonempty : body ≠ [])
    (inside : ∀ tree ∈ body, Stands blocks .assignment tree) :
    (spread body).takeWhile (!isNewline ·) ≠ [] := by
  cases body with
  | nil => exact absurd rfl nonempty
  | cons tree trees =>
    by_cases block : isBlock tree = true
    · obtain ⟨text, location, rfl⟩ := exists_of_isBlock block
      obtain ⟨line, more, lines⟩ := commentLines_pieces location text.toList
      rw [spread, spreadOne, lines]
      simp [isNewline]
    · have notNewline := (inside tree (by simp)).not_newline (by simp)
      rw [spread_cons_of_not_block (by simpa using block)]
      simp [notNewline]

theorem toList_render_assignment (nonempty : body ≠ []) :
    (render (.assignment name body location)).toList =
      ("let " ++ name ++ " = ").toList ++ (renderAll body).toList := by
  cases body with
  | nil => exact absurd rfl nonempty
  | cons tree trees => simp [render]

theorem charsOf_settle_assignment (nonempty : body ≠ [])
    (inside : ∀ tree ∈ body, Stands blocks .assignment tree) :
    charsOf (settle (.assignment name body location)) =
      (render (.assignment name body location)).toList := by
  have line : ∀ tree ∈ (spread body).takeWhile (!isNewline ·), isBlock tree = false :=
    fun tree mem => isBlock_of_mem_spread ((List.takeWhile_sublist _).subset mem)
  have whole : charsOf ((spread body).takeWhile (!isNewline ·)) ++
      charsOf ((spread body).dropWhile (!isNewline ·)) = (renderAll body).toList := by
    rw [← charsOf_append, List.takeWhile_append_dropWhile, charsOf_spread]
  have full := spread_line_ne_nil nonempty inside
  calc charsOf (settle (.assignment name body location))
    _ = (render (.assignment name ((spread body).takeWhile (!isNewline ·)) location)).toList ++
        charsOf ((spread body).dropWhile (!isNewline ·)) := rfl
    _ = ("let " ++ name ++ " = ").toList ++ (renderAll body).toList := by
        rw [toList_render_assignment full, toList_renderAll_of_not_block line,
          List.append_assoc, whole]
    _ = (render (.assignment name body location)).toList := (toList_render_assignment nonempty).symm

theorem stands_settle_assignment {location : Location} (identifier : Identifier name.toList)
    (free : name ∉ reservedWords) (nonempty : body ≠ [])
    (inside : ∀ tree ∈ body, Stands blocks .assignment tree) (order : body.IsChain Follows) :
    ∀ node ∈ settle (.assignment name body (some location)), Stands False .statement node := by
  have part : ∀ node ∈ spread body, (∃ location, node = .newline (some location)) ∨
      Stands False .assignment node := by
    intro node mem
    rcases stands_of_mem_spread inside mem with newline | ⟨stands, notBlock⟩
    · exact Or.inl newline
    · exact Or.inr (stands.without_blocks notBlock (stands.body_eq_nil (by simp)))
  have split := follows_chain_spread order
  rw [← List.takeWhile_append_dropWhile (l := spread body) (p := (!isNewline ·))] at split
  refine List.forall_mem_cons.mpr ⟨?_, ?_⟩
  · refine .assignment identifier free (spread_line_ne_nil nonempty inside) ?_ split.left_of_append
    intro node mem
    have notNewline := List.mem_takeWhile_imp mem
    rcases part node ((List.takeWhile_sublist _).subset mem) with ⟨location, rfl⟩ | stands
    · cases notNewline
    · exact stands
  · intro node mem
    rcases part node ((List.dropWhile_sublist _).subset mem) with ⟨location, rfl⟩ | stands
    · exact .newline
    · exact stands.in_statement

/-- An assignment and what was behind its first line. -/
theorem follows_chain_settle_assignment (order : body.IsChain Follows) :
    (settle (.assignment name body location)).IsChain Follows := by
  have split := follows_chain_spread order
  rw [← List.takeWhile_append_dropWhile (l := spread body) (p := (!isNewline ·))] at split
  refine split.right_of_append.cons ?_
  intro next head
  obtain ⟨more, rest⟩ := List.head?_eq_some_iff.mp head
  have newline := stopsAt_dropWhile (!isNewline ·) (spread body) next more rest
  exact follows_of_isNewline (by simpa using newline) _

end Body

theorem follows_head_settle {a next : Tree} (h : Follows a next) (more : List Tree) :
    ∀ first ∈ (settle next ++ more).head?, Follows a first := by
  cases next with
  | assignment name body location =>
    rintro first ⟨rfl⟩
    exact h
  | leaf | newline | call | program | bare | foreign =>
    rintro first ⟨rfl⟩
    exact h

/-- What settling one tree gives. -/
structure Settled (tree : Tree) : Prop where
  chars : charsOf (settle tree) = (render tree).toList
  stands : ∀ node ∈ settle tree, Stands False .statement node
  order : (settle tree).IsChain Follows
  /-- Behind it comes whatever may come behind the tree. -/
  last : ∀ next, Follows tree next → ∀ node ∈ (settle tree).getLast?, Follows node next

theorem Stands.settled_of_no_body {tree : Tree} (h : Stands blocks .statement tree)
    (notBlock : isBlock tree = false) (noBody : tree.body = []) : Settled tree := by
  have alone := settle_eq_self noBody
  constructor
  · simp [alone, charsOf]
  · simpa [alone] using h.without_blocks notBlock noBody
  · rw [alone]
    exact .singleton tree
  · intro next follows node last
    rw [alone] at last
    cases last
    exact follows

theorem Stands.settled {tree : Tree} (h : Stands blocks .statement tree)
    (notBlock : isBlock tree = false) : Settled tree := by
  by_cases noBody : tree.body = []
  · exact h.settled_of_no_body notBlock noBody
  cases h with
  | assignment identifier free nonempty inside order =>
    refine ⟨charsOf_settle_assignment nonempty inside,
      stands_settle_assignment identifier free nonempty inside order,
      follows_chain_settle_assignment order, ?_⟩
    intro next follows node _
    exact follows_of_isNewline (follows.1 rfl) node
  | number | string | boolean | comment | commentBlock | newline | call => exact absurd rfl noBody

theorem Stands.not_block {tree : Tree} (h : Stands blocks context tree) (noBlocks : ¬ blocks) :
    isBlock tree = false := by
  cases h <;> first | rfl | exact absurd ‹blocks› noBlocks

theorem Stands.settle_eq_self {tree : Tree} (h : Stands blocks .statement tree)
    (noBlocks : ¬ blocks) : settle tree = [tree] := by
  cases h with
  | @assignment name body location _ _ _ inside _ =>
    have unspread := spread_eq_self fun tree mem => (inside tree mem).not_block noBlocks
    have oneLine : ∀ tree ∈ body, (!isNewline tree) = true := fun tree mem => by
      simp [(inside tree mem).not_newline (by simp)]
    rw [settle, unspread, List.takeWhile_eq_self_iff.mpr oneLine,
      List.dropWhile_eq_nil_iff.mpr oneLine]
  | number | string | boolean | comment | commentBlock | newline | call => rfl

theorem stands_spread {trees : List Tree} (h : ∀ tree ∈ trees, Stands blocks .statement tree) :
    ∀ tree ∈ spread trees, Stands blocks .statement tree := by
  intro tree mem
  rcases stands_of_mem_spread h mem with ⟨location, rfl⟩ | ⟨stands, -⟩
  · exact .newline
  · exact stands

/-! Programs. -/

section Programs

variable {trees : List Tree} (h : ∀ tree ∈ trees, Stands blocks .statement tree)

include h

theorem settled_of_mem_spread : ∀ tree ∈ spread trees, Settled tree :=
  fun tree mem => (stands_spread h tree mem).settled (isBlock_of_mem_spread mem)

theorem charsOf_settleAll : charsOf (settleAll trees) = (renderAll trees).toList := by
  have same : charsOf (settleAll trees) = charsOf (spread trees) := by
    simp only [charsOf, settleAll, List.flatMap_assoc]
    exact List.flatMap_congr fun tree mem => (settled_of_mem_spread h tree mem).chars
  rw [same, charsOf_spread]

theorem stands_settleAll : ∀ node ∈ settleAll trees, Stands False .statement node := by
  intro node mem
  obtain ⟨tree, inSpread, mem⟩ := List.mem_flatMap.mp mem
  exact (settled_of_mem_spread h tree inSpread).stands node mem

theorem follows_chain_settleAll (order : trees.IsChain Follows) :
    (settleAll trees).IsChain Follows := by
  have settled := settled_of_mem_spread h
  have chain := follows_chain_spread order
  rw [settleAll]
  generalize spread trees = parts at settled chain
  induction parts with
  | nil => exact .nil
  | cons tree rest ih =>
    obtain ⟨first, others⟩ := List.forall_mem_cons.mp settled
    obtain ⟨next, chain⟩ := List.isChain_cons.mp chain
    rw [List.flatMap_cons]
    refine first.order.append (ih others chain) ?_
    intro last isLast
    -- The last part of one tree meets the first part of the next.
    cases rest with
    | nil => simp
    | cons following rest =>
      exact follows_head_settle (first.last following (next following rfl) last isLast) _

/-- Nothing changes in a program without block comments. -/
theorem settleAll_eq_self (noBlocks : ¬ blocks) : settleAll trees = trees := by
  have same : trees.flatMap settle = trees.flatMap fun tree => [tree] :=
    List.flatMap_congr fun tree mem => (h tree mem).settle_eq_self noBlocks
  rw [settleAll, spread_eq_self fun tree mem => (h tree mem).not_block noBlocks, same]
  exact List.flatMap_singleton' trees

end Programs

end Standing

end XoLang
