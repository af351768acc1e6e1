import XoLang.Proofs.Scanning

/-!
# Comments in generated code

No code is swallowed by a comment. Deleting the comments from generated code gives the text of the
program without its comments, and every word of the program stands there in its order. The comments
that a scan finds are the comments of the program, one a line.

A comment ends at a line feed only where a program is read, while JavaScript has more line
terminators. Generated code has the same comments for both exactly when no comment of the program
holds another terminator.
-/

namespace XoLang

open JavaScript

namespace JavaScript

/-- A leaf without comments; the line feeds of a block comment stay. -/
def bareLeaf : LeafKind → String → List Char
  | .comment, _ => []
  | .commentBlock, text => text.toList.filter (· = '\n')
  | kind, text => leafChars kind text

/-- The text of a tree without its comments. -/
def bare (tree : Tree) : List Char := weave bareLeaf (fun c => [c]) tree

/-- The comments of a leaf, one a line. -/
def leafComments : LeafKind → String → List (List Char)
  | .comment, text => [text.toList]
  | .commentBlock, text => Text.pieces '\n' text.toList
  | _, _ => []

/-- The comments of a tree in their order, one a line. -/
def comments (tree : Tree) : List (List Char) := weave leafComments (fun _ => []) tree

/-- The text of a part that is a comment. -/
def Part.comment? : Part → Option (List Char)
  | .comment text => some text
  | _ => none

/-- The word of a leaf that is no comment. -/
def leafWords : LeafKind → String → List (List Char)
  | .comment, _ => []
  | .commentBlock, _ => []
  | kind, text => [leafChars kind text]

mutual

/-- The words of a tree that are no comments: literals, names, parentheses and the heads of
declarations. -/
def codeWords : Tree → List (List Char)
  | .leaf kind text _ => leafWords kind text
  | .newline _ => []
  | .assignment name body _ =>
    "let".toList :: name.toList :: (if body.isEmpty then [] else ['='] :: codeWordsAll body)
  | .call name params _ => name.toList :: ['('] :: (codeWordsAll params ++ [[')']])
  | .program body _ => codeWordsAll body
  | .bare _ => []
  | .foreign _ _ => []
termination_by structural tree => tree

/-- The words of trees that are no comments. -/
def codeWordsAll : List Tree → List (List Char)
  | [] => []
  | tree :: trees => codeWords tree ++ codeWordsAll trees
termination_by structural trees => trees

end

/-- Blanks, line feeds and commas. -/
def Filling (gap : List Char) : Prop := ∀ c ∈ gap, c = ' ' ∨ c = '\n' ∨ c = ','

/-- A text of words in their order, with nothing but filling around them. -/
inductive LaidOut : List (List Char) → List Char → Prop
  | done {gap : List Char} (filling : Filling gap) : LaidOut [] gap
  | word {gap word text : List Char} {words : List (List Char)} (filling : Filling gap)
      (rest : LaidOut words text) : LaidOut (word :: words) (gap ++ word ++ text)

/-! Deleting the comments of a tree. -/

theorem without_map_code (run : List Char) : without Part.isComment (run.map .code) = run := by
  induction run with
  | nil => rfl
  | cons c run ih => exact congrArg (c :: ·) ih

theorem without_lines (text : List Char) :
    without Part.isComment (((Text.pieces '\n' text).map .comment).intersperse (.code '\n')) =
      text.filter (· = '\n') := by
  induction text with
  | nil => rfl
  | cons c text ih =>
    rw [Text.pieces]
    cases cut : Text.pieces '\n' text with
    | nil => exact absurd cut (pieces_ne_nil '\n' text)
    | cons piece rest =>
      rw [cut] at ih
      by_cases feed : c = '\n'
      · rw [if_pos feed, List.filter_cons_of_pos (by simpa using feed), ← ih, feed]
        rfl
      · -- The first comment is longer by one character, and it is deleted anyway.
        rw [if_neg feed, List.filter_cons_of_neg (by simpa using feed), ← ih]
        cases rest <;> rfl

theorem without_leafParts (kind : LeafKind) (text : String) :
    without Part.isComment (leafParts kind text) = bareLeaf kind text := by
  cases kind with
  | number => exact without_map_code text.toList
  | string => exact List.append_nil _
  | boolean => exact without_map_code text.toList
  | comment => rfl
  | commentBlock => exact without_lines text.toList

theorem without_weave (tree : Tree) :
    without Part.isComment (weave leafParts charPart tree) = bare tree := by
  rw [without, flatMap_weave, bare]
  congr 1
  funext kind text
  exact without_leafParts kind text

/-! What is found in the parts of a tree. -/

section Found

variable {α : Type} {found? : Part → Option α}

theorem found_code (marks : ∀ c, found? (.code c) = none) (run : List Char) :
    (run.map Part.code).filterMap found? = [] := by
  simp [marks]

theorem found_lines (marks : ∀ c, found? (.code c) = none) (lines : List (List Char)) :
    ((lines.map Part.comment).intersperse (.code '\n')).filterMap found? =
      lines.filterMap fun line => found? (.comment line) := by
  induction lines with
  | nil => rfl
  | cons line lines ih =>
    cases lines with
    | nil => rfl
    | cons next lines =>
      rw [List.filterMap_cons, ← ih]
      simp [List.filterMap_cons, marks]

/-- What is found in the parts of a tree is found in its leaves, unless it is a character. -/
theorem found_weave (marks : ∀ c, found? (.code c) = none) (tree : Tree) :
    (weave leafParts charPart tree).filterMap found? =
      weave (fun kind text => (leafParts kind text).filterMap found?) (fun _ => []) tree := by
  rw [List.filterMap_eq_flatMap_toList, flatMap_weave]
  congr 1
  · funext kind text
    rw [List.filterMap_eq_flatMap_toList]
  · funext c
    simp [charPart, marks]

end Found

theorem filterMap_leafParts (kind : LeafKind) (text : String) :
    (leafParts kind text).filterMap Part.comment? = leafComments kind text := by
  have marks : ∀ c, Part.comment? (.code c) = none := fun _ => rfl
  cases kind with
  | number | boolean => exact found_code marks text.toList
  | string | comment => rfl
  | commentBlock =>
    rw [leafParts, found_lines marks]
    exact List.filterMap_some

/-- The comments of a tree. -/
theorem filterMap_weave (tree : Tree) :
    (weave leafParts charPart tree).filterMap Part.comment? = comments tree := by
  rw [found_weave fun _ => rfl, comments]
  congr 1
  funext kind text
  exact filterMap_leafParts kind text

/-! The words of a tree. -/

theorem LaidOut.nil : LaidOut [] [] := .done (by simp [Filling])

theorem LaidOut.behind {gap text : List Char} {words : List (List Char)} (filling : Filling gap)
    (h : LaidOut words text) : LaidOut words (gap ++ text) := by
  cases h with
  | done more => exact .done (List.forall_mem_append.mpr ⟨filling, more⟩)
  | word more rest =>
    rw [← List.append_assoc, ← List.append_assoc]
    exact .word (List.forall_mem_append.mpr ⟨filling, more⟩) rest

theorem LaidOut.append {text text' : List Char} {words words' : List (List Char)}
    (h : LaidOut words text) (h' : LaidOut words' text') :
    LaidOut (words ++ words') (text ++ text') := by
  induction h with
  | done filling => exact h'.behind filling
  | word filling _ ih =>
    rw [List.cons_append, List.append_assoc]
    exact .word filling ih

theorem LaidOut.cons {text : List Char} {words : List (List Char)} (word : List Char)
    (h : LaidOut words text) : LaidOut (word :: words) (word ++ text) := by
  have none : Filling [] := by simp [Filling]
  exact .word none h

theorem LaidOut.single (word : List Char) : LaidOut [word] word := by
  have alone := LaidOut.nil.cons word
  rwa [List.append_nil] at alone

theorem filling_lineBreak (tree : Tree) (following : List Tree) :
    Filling (lineBreak tree following).toList := by
  cases following with
  | nil => simp [lineBreak, Filling]
  | cons next following =>
    rw [lineBreak]
    split_ifs <;> simp [Filling]

theorem laidOut_all {trees : List Tree} (h : ∀ tree ∈ trees, LaidOut (codeWords tree) (bare tree)) :
    LaidOut (codeWordsAll trees) (weaveAll bareLeaf (fun c => [c]) trees) := by
  induction trees with
  | nil => exact .nil
  | cons tree trees ih =>
    obtain ⟨first, rest⟩ := List.forall_mem_cons.mp h
    rw [weaveAll, List.flatMap_singleton', List.append_assoc, codeWordsAll]
    exact first.append ((ih rest).behind (filling_lineBreak tree trees))

theorem laidOut_list {trees : List Tree}
    (h : ∀ tree ∈ trees, LaidOut (codeWords tree) (bare tree)) :
    LaidOut (codeWordsAll trees) (weaveList bareLeaf (fun c => [c]) trees) := by
  induction trees with
  | nil => exact .nil
  | cons tree trees ih =>
    obtain ⟨first, rest⟩ := List.forall_mem_cons.mp h
    rw [weaveList, List.flatMap_singleton', List.append_assoc, codeWordsAll]
    refine first.append ((ih rest).behind ?_)
    split_ifs <;> simp [Filling]

theorem laidOut_bare (tree : Tree) : LaidOut (codeWords tree) (bare tree) := by
  induction tree using Tree.induction with
  | leaf kind text location =>
    cases kind with
    | number | string | boolean => exact .single _
    | comment => exact .nil
    | commentBlock =>
      refine .done fun c mem => ?_
      have feed : c = '\n' := by simpa using List.of_mem_filter mem
      exact Or.inr (Or.inl feed)
  | newline => exact .done (show Filling ['\n'] by simp [Filling])
  | assignment name body location ih =>
    have head : bare (.assignment name body location) = "let".toList ++ ([' '] ++ (name.toList ++
        (if body.isEmpty then [] else [' '] ++ (['='] ++ ([' '] ++
          weaveAll bareLeaf (fun c => [c]) body))))) := by
      simp [bare, weave]
    have blank : Filling [' '] := by simp [Filling]
    rw [head, codeWords]
    refine .cons _ (.behind blank (.cons _ ?_))
    split_ifs
    · exact .nil
    · exact .behind blank (.cons _ (.behind blank (laidOut_all ih)))
  | call name params location ih =>
    have whole : bare (.call name params location) =
        name.toList ++ (['('] ++ (weaveList bareLeaf (fun c => [c]) params ++ [')'])) := by
      simp [bare, weave]
    rw [whole, codeWords]
    exact .cons _ (.cons _ ((laidOut_list ih).append (.single [')'])))
  | program body location ih => exact laidOut_all ih
  | bare | foreign => exact .nil

end JavaScript

/-- The line feed alone ends a comment where programs are read. -/
theorem Tree.quiet_isFeed (tree : Tree) : tree.Quiet isFeed :=
  fun _ _ _ _ _ c _ feed => by simpa [isFeed] using feed

/-- No code is swallowed by a comment. Generated code without its comments is the text of the
program without them, with every word of the program in its order; and the comments in generated
code are those of the program. -/
theorem compile_erase_comments (delimiter : Delimiter) (file source code : String)
    (compiled : compile delimiter file source = .ok code) :
    ∃ tree, parse delimiter file source = .ok tree ∧
      erase isFeed Part.isComment code.toList = bare tree ∧
      LaidOut (codeWords tree) (erase isFeed Part.isComment code.toList) ∧
      (parts isFeed code.toList).filterMap Part.comment? = comments tree := by
  obtain ⟨tree, parsed, rfl⟩ := exists_parse_of_compile compiled
  have found := parts_of_parse rfl parsed tree.quiet_isFeed
  have erased : erase isFeed Part.isComment (render tree).toList = bare tree := by
    rw [erase, found, without_weave]
  refine ⟨tree, parsed, erased, ?_, ?_⟩
  · rw [erased]
    exact laidOut_bare tree
  · rw [found, filterMap_weave]

theorem comments_behind_quoted_slashes :
    compile .default "a.xo" "'//'/*b*/7//c\n5" = .ok "\"//\"//b\n7//c\n5" ∧
    erase isFeed Part.isComment "\"//\"//b\n7//c\n5".toList = "\"//\"\n7\n5".toList ∧
    (parts isFeed "\"//\"//b\n7//c\n5".toList).filterMap Part.comment? = [['b'], ['c']] := by
  have string : Spelled .default .string ['/', '/'] ['\'', '/', '/', '\'']
      "/*b*/7//c\n5".toList := .string rfl (by decide)
  have block : Spelled .default .commentBlock ['b'] ['/', '*', 'b', '*', '/'] "7//c\n5".toList :=
    .commentBlock (.char (by simp [StartsMark]) .empty)
  have ends : NumberEnds "//c\n5".toList := ⟨stopsAt_cons (by decide) _, by simp⟩
  have seven : Spelled .default .number ['7'] ['7'] "//c\n5".toList :=
    .number (c := '7') (by decide) .done ends
  have comment : Spelled .default .comment ['c'] ['/', '/', 'c'] "\n5".toList :=
    .comment (by decide) (stopsAt_cons (by decide) _)
  have five : Spelled .default .number ['5'] ['5'] [] :=
    .number (c := '5') (by decide) .done ⟨stopsAt_nil _, by simp⟩
  have lexed : Lexed .default "a.xo" [] "'//'/*b*/7//c\n5".toList
      [⟨.string, "//", ⟨1, 1, "a.xo"⟩⟩, ⟨.commentBlock, "b", ⟨1, 5, "a.xo"⟩⟩,
        ⟨.number, "7", ⟨1, 10, "a.xo"⟩⟩, ⟨.comment, "c", ⟨1, 11, "a.xo"⟩⟩,
        ⟨.newline, "\n", ⟨1, 14, "a.xo"⟩⟩, ⟨.number, "5", ⟨2, 1, "a.xo"⟩⟩] :=
    .spelled string (.spelled block (.spelled seven (.spelled comment
      (.spelled .newline (.spelled five (.done (by simp [Gap])))))))
  have parsed := parse_eq_ok_iff.mpr ⟨_, _, lexed, .single (.string rfl)
    (.single (.commentBlock rfl (by simp)) (.single (.number rfl) (.single (.comment rfl (by simp))
      (.single (.newline rfl) (.single (.number rfl) .empty))))), rfl⟩
  have compiled : compile .default "a.xo" "'//'/*b*/7//c\n5" = .ok "\"//\"//b\n7//c\n5" := by
    rw [compile_eq_map, parsed]
    rfl
  obtain ⟨tree, parsed', erased, -, found⟩ := compile_erase_comments _ _ _ _ compiled
  obtain rfl := Except.ok.inj (parsed.symm.trans parsed')
  exact ⟨compiled, erased, found⟩

/-! More characters that end a comment. -/

section Terminators

variable {α : Type} {leaf : LeafKind → String → List α} {mark : Char → List α} {a : α}

theorem mem_weaveAll_of_mem {trees : List Tree} {tree : Tree} (mem : tree ∈ trees)
    (h : a ∈ weave leaf mark tree) :
    a ∈ weaveAll leaf mark trees ∧ a ∈ weaveList leaf mark trees := by
  induction trees with
  | nil => cases mem
  | cons first trees ih =>
    simp only [weaveAll, weaveList, List.mem_append]
    rcases List.mem_cons.mp mem with rfl | mem
    · exact ⟨Or.inl (Or.inl h), Or.inl (Or.inl h)⟩
    · exact ⟨Or.inr (ih mem).1, Or.inr (ih mem).2⟩

/-- What is woven for a tree holds what stands in place of its leaves. -/
theorem mem_weave_of_leaf {kind : LeafKind} {text : String} {location : Option Location}
    (h : a ∈ leaf kind text) {tree : Tree} (below : .leaf kind text location ∈ tree.nodes) :
    a ∈ weave leaf mark tree := by
  induction tree using Tree.induction with
  | leaf kind' text' location' =>
    obtain ⟨rfl, rfl, rfl⟩ : kind = kind' ∧ text = text' ∧ location = location' := by
      simpa [Tree.nodes] using below
    exact h
  | newline | bare | foreign => simp [Tree.nodes] at below
  | assignment name body location' ih =>
    obtain ⟨tree, mem, below⟩ := Tree.exists_of_mem_allNodes (by simpa [Tree.nodes] using below)
    have nonempty : ¬ body.isEmpty = true := by
      rintro empty
      rw [List.isEmpty_iff.mp empty] at mem
      cases mem
    have inside := (mem_weaveAll_of_mem mem (ih tree mem below)).1
    rw [weave, if_neg nonempty]
    exact List.mem_append_right _ (List.mem_append_right _ inside)
  | call name params location' ih =>
    obtain ⟨tree, mem, below⟩ := Tree.exists_of_mem_allNodes (by simpa [Tree.nodes] using below)
    have inside := (mem_weaveAll_of_mem mem (ih tree mem below)).2
    rw [weave]
    exact List.mem_append_left _ (List.mem_append_right _ inside)
  | program body location' ih =>
    obtain ⟨tree, mem, below⟩ := Tree.exists_of_mem_allNodes (by simpa [Tree.nodes] using below)
    exact (mem_weaveAll_of_mem mem (ih tree mem below)).1

end Terminators

theorem Tree.quiet_of_comments {ends : Char → Bool} {tree : Tree}
    (h : ∀ comment ∈ comments tree, ∀ c ∈ comment, ends c = false) : tree.Quiet ends := by
  intro kind text location below isComment c mem ended
  cases kind with
  | number | string | boolean => cases isComment
  | comment =>
    have found : text.toList ∈ comments tree :=
      mem_weave_of_leaf List.mem_cons_self below
    rw [h _ found c mem] at ended
    cases ended
  | commentBlock =>
    by_contra notFeed
    have inside : c ∈ (Text.pieces '\n' text.toList).flatten := by
      rw [flatten_pieces, List.mem_filter]
      exact ⟨mem, by simpa using notFeed⟩
    obtain ⟨line, isPiece, inLine⟩ := List.mem_flatten.mp inside
    have found : line ∈ comments tree := mem_weave_of_leaf isPiece below
    rw [h _ found c inLine] at ended
    cases ended

theorem Tree.quiet_isTerminator_iff {tree : Tree} :
    tree.Quiet isTerminator ↔ ∀ kind text location, .leaf kind text location ∈ tree.nodes →
      kind.isComment = true →
        '\r' ∉ text.toList ∧ '\u2028' ∉ text.toList ∧ '\u2029' ∉ text.toList := by
  constructor
  · intro h kind text location below isComment
    have silent := h kind text location below isComment
    refine ⟨fun mem => ?_, fun mem => ?_, fun mem => ?_⟩ <;>
      exact absurd (silent _ mem (by decide)) (by decide)
  · intro h kind text location below isComment c mem ended
    obtain ⟨noReturn, noLine, noParagraph⟩ := h kind text location below isComment
    simp only [isTerminator, Bool.or_eq_true, decide_eq_true_eq] at ended
    rcases ended with ((feed | rfl) | rfl) | rfl
    · exact feed
    · exact absurd mem noReturn
    · exact absurd mem noLine
    · exact absurd mem noParagraph

/-- With all line terminators of JavaScript, deleting the comments from generated code gives the
same as with line feeds alone exactly when no comment of the program holds another terminator. -/
theorem erase_terminators_iff (delimiter : Delimiter) (file source code : String)
    (compiled : compile delimiter file source = .ok code) :
    ∃ tree, parse delimiter file source = .ok tree ∧
      (erase isTerminator Part.isComment code.toList = erase isFeed Part.isComment code.toList ↔
        ∀ kind text location, .leaf kind text location ∈ tree.nodes → kind.isComment = true →
          '\r' ∉ text.toList ∧ '\u2028' ∉ text.toList ∧ '\u2029' ∉ text.toList) := by
  obtain ⟨tree, parsed, rfl⟩ := exists_parse_of_compile compiled
  have found := parts_of_parse rfl parsed tree.quiet_isFeed
  refine ⟨tree, parsed, ?_⟩
  rw [← Tree.quiet_isTerminator_iff]
  constructor
  · intro same
    have wider : ∀ c, isFeed c = true → isTerminator c = true := by
      intro c feed
      simp [isTerminator, show c = '\n' by simpa [isFeed] using feed]
    -- The comments that a scan up to line feeds finds are all comments of the program.
    have silent := not_ends_of_without_eq wider .code (render tree).toList (by simp) same
    refine Tree.quiet_of_comments fun comment mem => silent comment ?_
    rw [← filterMap_weave, ← found] at mem
    obtain ⟨part, isPart, isComment⟩ := List.mem_filterMap.mp mem
    cases part with
    | comment text =>
      cases isComment
      exact isPart
    | code | quoted => cases isComment
  · intro quiet
    rw [erase, erase, found, parts_of_parse rfl parsed quiet]

theorem carriage_return_in_comment :
    compile .default "a.xo" "//a\rb()" = .ok "//a\rb()" ∧
    erase isTerminator Part.isComment "//a\rb()".toList ≠
      erase isFeed Part.isComment "//a\rb()".toList := by
  have comment : Spelled .default .comment "a\rb()".toList "//a\rb()".toList [] :=
    .comment (by decide) (stopsAt_nil _)
  have lexed : Lexed .default "a.xo" [] "//a\rb()".toList
      [⟨.comment, "a\rb()", ⟨1, 1, "a.xo"⟩⟩] :=
    .spelled comment (.done (by simp [Gap]))
  have parsed := parse_eq_ok_iff.mpr ⟨_, _, lexed, .single (.comment rfl (by simp)) .empty, rfl⟩
  have compiled : compile .default "a.xo" "//a\rb()" = .ok "//a\rb()" := by
    rw [compile_eq_map, parsed]
    rfl
  obtain ⟨tree, parsed', same⟩ := erase_terminators_iff _ _ _ _ compiled
  obtain rfl := Except.ok.inj (parsed.symm.trans parsed')
  refine ⟨compiled, fun erased => ?_⟩
  exact (same.mp erased .comment "a\rb()" _
    (List.mem_cons_of_mem _ List.mem_cons_self) rfl).1 (by decide)

/-- The text of a comment can become code. -/
theorem code_behind_line_separator :
    compile .default "a.xo" "/*a\u2028b()*/" = .ok "//a\u2028b()" ∧
    erase isTerminator Part.isComment "//a\u2028b()".toList = "\u2028b()".toList ∧
    erase isFeed Part.isComment "//a\u2028b()".toList = [] := by
  have parens : CommentText ['*', '/'] ['(', ')'] :=
    .char (by simp [StartsMark]) (.char (by simp [StartsMark]) .empty)
  have nested : CommentText ['*', '/'] ['a', '\u2028', 'b', '(', ')'] :=
    .char (by simp [StartsMark]) (.char (by simp [StartsMark]) (.char (by simp [StartsMark]) parens))
  have lexed : Lexed .default "a.xo" [] "/*a\u2028b()*/".toList
      [⟨.commentBlock, "a\u2028b()", ⟨1, 1, "a.xo"⟩⟩] :=
    .spelled (.commentBlock nested) (.done (by simp [Gap]))
  have parsed := parse_eq_ok_iff.mpr
    ⟨_, _, lexed, .single (.commentBlock rfl (by simp)) .empty, rfl⟩
  refine ⟨?_, by decide, by decide⟩
  rw [compile_eq_map, parsed]
  rfl

end XoLang
