import XoLang.Proofs.Listing
import XoLang.Proofs.Parts
import XoLang.Proofs.Shape
import XoLang.Proofs.Spreading

/-!
# Line feeds from a source to its code

Line feeds stand in a source as tokens of their own, in strings and in block comments. Strings are
written with escapes and arguments on one line, so their line feeds go; line ends of statements and
the line feeds of block comments stay; behind a block comment there is one more where something
follows it on its line. The count is made on the tokens, carried over to the nodes along `Listed`,
and made again on the text of the tree.
-/

namespace XoLang

open JavaScript

/-- The line feeds of a token that is a line end or a block comment. -/
def Token.feeds (t : Token) : Nat :=
  match t.kind with
  | .newline => 1
  | .commentBlock => t.text.toList.count '\n'
  | _ => 0

/-- The line feeds in a string. -/
def Token.quotedFeeds (t : Token) : Nat :=
  if t.kind = .string then t.text.toList.count '\n' else 0

/-- The line feeds of a node that is a line end or a block comment. -/
def Tree.feeds : Tree → Nat
  | .newline _ => 1
  | .leaf .commentBlock text _ => text.toList.count '\n'
  | _ => 0

/-- The trees right below a tree. -/
def Tree.children : Tree → List Tree
  | .assignment _ body _ => body
  | .call _ params _ => params
  | .program body _ => body
  | _ => []

/-- How many of some trees are block comments with a next one that is no line end. -/
def followedBlocks : List Tree → Nat
  | tree :: next :: trees =>
    (if isBlock tree && !isNewline next then 1 else 0) + followedBlocks (next :: trees)
  | _ => 0

/-- How many block comments of a tree have a next sibling that is no line end. -/
def Tree.followedBlocks (tree : Tree) : Nat :=
  (tree.nodes.map fun node => XoLang.followedBlocks node.children).sum

/-! Line feeds of a source. -/

section Sources

theorem count_eq_zero_of_isNamePart {run : List Char} (h : ∀ c ∈ run, isNamePart c = true) :
    run.count '\n' = 0 := by
  apply List.count_eq_zero.mpr
  intro mem
  exact absurd (h '\n' mem) (by decide)

theorem DigitGroups.isNamePart {groups : List Char} (h : DigitGroups groups) :
    ∀ c ∈ groups, XoLang.isNamePart c = true := by
  induction h with
  | done => simp
  | digit hc _ ih => exact List.forall_mem_cons.mpr ⟨by simp [XoLang.isNamePart, hc], ih⟩
  | separated hc _ ih =>
    exact List.forall_mem_cons.mpr
      ⟨by decide, List.forall_mem_cons.mpr ⟨by simp [XoLang.isNamePart, hc], ih⟩⟩

variable {delimiter : Delimiter} {file : String} {before rest : List Char} {tokens : List Token}

theorem Spelled.count_feeds {kind : TokenKind} {text raw : List Char}
    (h : Spelled delimiter kind text raw rest) (location : Location) :
    raw.count '\n' = Token.feeds ⟨kind, String.ofList text, location⟩ +
      Token.quotedFeeds ⟨kind, String.ofList text, location⟩ := by
  cases h with
  | newline => rfl
  | punctuation mark =>
    simp only [punctuationMarks, List.mem_cons, Prod.mk.injEq, List.not_mem_nil, or_false] at mark
    rcases mark with ⟨rfl, rfl⟩ | ⟨rfl, rfl⟩ | ⟨rfl, rfl⟩ | ⟨rfl, rfl⟩ | ⟨rfl, rfl⟩ | ⟨rfl, rfl⟩ <;>
      rfl
  | comment oneLine _ => simp [Token.feeds, Token.quotedFeeds, List.count_eq_zero.mpr oneLine]
  | commentBlock _ => simp [Token.feeds, Token.quotedFeeds]
  | @string quote text _ mark _ =>
    have other : quote ≠ '\n' := by
      rintro rfl
      exact (Delimiter.not_other_class mark).1 (by decide)
    simp [Token.feeds, Token.quotedFeeds, other]
  | @number c groups _ first more _ =>
    have none := count_eq_zero_of_isNamePart (DigitGroups.digit first more).isNamePart
    simpa [Token.feeds, Token.quotedFeeds] using none
  | @name c cs _ first more _ =>
    have none : (c :: cs).count '\n' = 0 := by
      apply count_eq_zero_of_isNamePart
      exact List.forall_mem_cons.mpr ⟨isNamePart_of_isNameStart first, more⟩
    simpa [Token.feeds, Token.quotedFeeds] using none

theorem Gap.count_feeds {w : List Char} (h : Gap w) : w.count '\n' = 0 := by
  apply List.count_eq_zero.mpr
  intro mem
  have blank := h '\n' mem
  simp at blank

/-- The line feeds of a source are those of its tokens. -/
theorem Lexed.count_feeds (h : Lexed delimiter file before rest tokens) :
    rest.count '\n' = (tokens.map Token.feeds).sum + (tokens.map Token.quotedFeeds).sum := by
  induction h with
  | done gap => simpa using gap.count_feeds
  | @token before w raw text rest kind tokens gap spelled _ ih =>
    have first := spelled.count_feeds (placeAfter file (before ++ w))
    simp only [List.count_append, gap.count_feeds, first, ih, List.map_cons, List.sum_cons]
    omega

end Sources

/-! Line feeds of tokens and nodes. -/

section Nodes

variable {tokens : List Token} {nodes : List Tree}

/-- Of the line ends only those inside calls are not left in the tree. -/
theorem sum_feeds_keptTokens (depth : Nat) (tokens : List Token) :
    (tokens.map Token.feeds).sum =
      ((keptTokens depth tokens).map Token.feeds).sum +
        (withDepth depth tokens).countP isInnerNewline := by
  induction tokens generalizing depth with
  | nil => rfl
  | cons t ts ih =>
    have rest := ih (t.kind.deepen depth)
    rw [List.map_cons, List.sum_cons, withDepth, List.countP_cons]
    by_cases dropped : isDropped (t, depth) = true
    · rw [keptTokens_of_dropped dropped]
      have own : t.feeds = if isInnerNewline (t, depth) = true then 1 else 0 := by
        cases kind : t.kind <;> simp_all [isDropped, isInnerNewline, Token.feeds]
      omega
    · have outer : isInnerNewline (t, depth) = false := by
        simp only [isDropped, Bool.or_eq_true, not_or, Bool.not_eq_true] at dropped
        exact dropped.2
      rw [keptTokens_of_not_dropped (by simpa using dropped), List.map_cons, List.sum_cons, outer]
      simp only [Bool.false_eq_true, if_false]
      omega

theorem Listed.sum_feeds (h : Listed tokens nodes) :
    (tokens.map Token.feeds).sum = (nodes.map Tree.feeds).sum := by
  induction h with
  | done => rfl
  | single item _ ih =>
    rw [List.map_cons, List.map_cons, List.sum_cons, List.sum_cons, ih]
    congr 1
    cases item <;> simp_all [Token.feeds, Tree.feeds]
  | call naming _ ih => simp [Token.feeds, Tree.feeds, naming.1, ih]
  | declaration keyword naming _ ih =>
    simp [Token.feeds, Tree.feeds, keyword.1, naming.1, ih]

theorem sum_allNodes (f : Tree → Nat) (trees : List Tree) :
    ((Tree.allNodes trees).map f).sum = (trees.map fun tree => (tree.nodes.map f).sum).sum := by
  induction trees with
  | nil => rfl
  | cons tree trees ih =>
    rw [Tree.allNodes, List.map_append, List.sum_append, ih, List.map_cons, List.sum_cons]

end Nodes

/-! Line feeds of a text. -/

section Texts

/-- The line feeds that a tree is rendered with: those of its nodes, and one behind every block
comment that something follows. -/
def Tree.renderedFeeds (tree : Tree) : Nat :=
  (tree.nodes.map fun node => node.feeds + XoLang.followedBlocks node.children).sum

theorem Tree.nodes_eq (tree : Tree) : tree.nodes = tree :: Tree.allNodes tree.children := by
  cases tree <;> rfl

theorem Tree.renderedFeeds_eq (tree : Tree) :
    tree.renderedFeeds = tree.feeds + (tree.children.map Tree.renderedFeeds).sum +
      XoLang.followedBlocks tree.children := by
  have below := sum_allNodes (fun node => node.feeds + XoLang.followedBlocks node.children)
    tree.children
  rw [Tree.renderedFeeds, Tree.nodes_eq, List.map_cons, List.sum_cons, below, Nat.add_right_comm]
  rfl

theorem Tree.renderedFeeds_eq_add (tree : Tree) :
    tree.renderedFeeds = (tree.nodes.map Tree.feeds).sum + tree.followedBlocks :=
  List.sum_map_add

theorem count_join (separator : String) (texts : List String) :
    (Text.join separator texts).toList.count '\n' =
      (texts.map (·.toList.count '\n')).sum +
        (texts.length - 1) * separator.toList.count '\n' := by
  fun_induction Text.join separator texts with
  | case1 => simp
  | case2 text => simp
  | case3 text rest nonempty ih =>
    cases rest with
    | nil => exact absurd rfl nonempty
    | cons next rest =>
      simp only [String.toList_append, List.count_append, ih, List.map_cons, List.sum_cons,
        List.length_cons, Nat.add_sub_cancel, Nat.succ_mul]
      omega

theorem length_pieces (separator : Char) (text : List Char) :
    (Text.pieces separator text).length = text.count separator + 1 := by
  induction text with
  | nil => rfl
  | cons c text ih =>
    rw [Text.pieces]
    by_cases same : c = separator
    · rw [if_pos same, List.length_cons, ih, same, List.count_cons_self]
    · rw [if_neg same, List.count_cons_of_ne same]
      cases cut : Text.pieces separator text with
      | nil => exact absurd cut (pieces_ne_nil separator text)
      | cons piece rest =>
        rw [cut] at ih
        exact ih

theorem count_commentBlock (text : String) :
    (leafText .commentBlock text).toList.count '\n' = text.toList.count '\n' := by
  have none : ∀ line ∈ Text.pieces '\n' text.toList, (lineComment line).toList.count '\n' = 0 := by
    intro line mem
    have oneLine : '\n' ∉ line := not_mem_of_mem_pieces mem
    simp [lineComment, List.count_eq_zero.mpr oneLine]
  have lines : (((Text.pieces '\n' text.toList).map lineComment).map (·.toList.count '\n')).sum =
      0 := by
    apply List.sum_eq_zero
    simpa using none
  rw [leafText, count_join, lines, List.length_map, length_pieces]
  simp

theorem count_renderAll (trees : List Tree) :
    (renderAll trees).toList.count '\n' =
      (trees.map fun tree => (render tree).toList.count '\n').sum + followedBlocks trees := by
  induction trees with
  | nil => rfl
  | cons tree trees ih =>
    rw [renderAll, String.toList_append, String.toList_append, List.count_append,
      List.count_append, ih, List.map_cons, List.sum_cons]
    cases trees with
    | nil => simp [lineBreak, followedBlocks]
    | cons next trees =>
      rw [lineBreak, followedBlocks]
      split_ifs
      · simp
        omega
      · simp
        omega

theorem followedBlocks_eq_zero {trees : List Tree} (h : ∀ tree ∈ trees, isBlock tree = false) :
    followedBlocks trees = 0 := by
  fun_induction followedBlocks trees with
  | case1 tree next trees ih =>
    obtain ⟨first, rest⟩ := List.forall_mem_cons.mp h
    simp [first, ih rest]
  | case2 => rfl

end Texts

/-! Line feeds of the text of a tree. -/

section Rendered

variable {context : Context} {tokens : List Token} {nodes : List Tree}

theorem Identifier.count_feeds {text : List Char} (h : Identifier text) : text.count '\n' = 0 := by
  obtain ⟨c, cs, rfl, first, more⟩ := h
  apply count_eq_zero_of_isNamePart
  exact List.forall_mem_cons.mpr ⟨isNamePart_of_isNameStart first, more⟩

theorem Numeral.count_feeds {text : List Char} (h : Numeral text) : text.count '\n' = 0 := by
  apply count_eq_zero_of_isNamePart
  intro c mem
  simp [isNamePart, h.2 c mem]

theorem Single.count_render {t : Token} {node : Tree} (h : Single context t (some node))
    (fits : t.Fits) : (render node).toList.count '\n' = node.feeds := by
  cases h with
  | number kind => exact (fits.number kind).count_feeds
  | string =>
    apply List.count_eq_zero.mpr
    intro mem
    exact absurd (plainText_visible t.text '\n' mem) (by decide)
  | boolean _ isWord => rcases isWord with word | word <;> simp [render, leafText, Tree.feeds, word]
  | comment kind =>
    simp [render, leafText, lineComment, Tree.feeds, List.count_eq_zero.mpr (fits.comment kind)]
  | commentBlock => exact count_commentBlock t.text
  | newline => simp [render, Tree.feeds]

theorem Single.children_eq {t : Token} {node : Tree} (h : Single context t (some node)) :
    node.children = [] := by
  cases h <;> rfl

theorem Shaped.not_isBlock {tree : Tree} (h : Shaped .arguments tree) : isBlock tree = false := by
  cases h with
  | commentBlock allowed => exact absurd rfl allowed
  | number | string | boolean | comment | call => rfl

theorem Items.count_render (h : Items context tokens nodes) (fits : ∀ t ∈ tokens, t.Fits) :
    ∀ node ∈ nodes, (render node).toList.count '\n' = node.renderedFeeds := by
  induction h with
  | empty => simp
  | @single context t node tokens nodes item _ ih =>
    obtain ⟨fit, fits⟩ := List.forall_mem_cons.mp fits
    refine List.forall_mem_append.mpr ⟨?_, ih fits⟩
    cases node with
    | none => simp
    | some node =>
      have alone : node.renderedFeeds = node.feeds := by
        simp [Tree.renderedFeeds_eq, item.children_eq, followedBlocks]
      simpa [alone] using item.count_render fit
  | @call context name paren close inner tokens params nodes naming _ derived _ _ ihInside ih =>
    simp only [List.forall_mem_cons, List.forall_mem_append] at fits ⊢
    obtain ⟨fitName, -, fitInner, -, fits⟩ := fits
    have inside : params.map (fun tree => (render tree).toList.count '\n') =
        params.map Tree.renderedFeeds := List.map_congr_left (ihInside fitInner)
    have noBlocks : followedBlocks params = 0 :=
      followedBlocks_eq_zero fun tree mem => (derived.shaped tree mem).not_isBlock
    refine ⟨?_, ih fits⟩
    rw [render, renderEach_eq_map, Tree.renderedFeeds_eq, Tree.children, noBlocks, ← inside]
    simp [count_join, (fitName.name naming.1).count_feeds, Function.comp_def, Tree.feeds]
  | @declaration word name equals line tokens body nodes _ naming _ _ _ _ _ ihInside ih =>
    simp only [List.forall_mem_cons, List.forall_mem_append] at fits ⊢
    obtain ⟨-, fitName, -, fitLine, fits⟩ := fits
    have inside : body.map (fun tree => (render tree).toList.count '\n') =
        body.map Tree.renderedFeeds := List.map_congr_left (ihInside fitLine)
    refine ⟨?_, ih fits⟩
    rw [Tree.renderedFeeds_eq, Tree.children, ← inside, Nat.add_assoc, ← count_renderAll, render]
    cases body with
    | nil => simp [renderAll, (fitName.name naming.1).count_feeds, Tree.feeds]
    | cons tree body => simp [(fitName.name naming.1).count_feeds, Tree.feeds]

/-- The text of a program has the line feeds of its nodes and those behind block comments. -/
theorem Items.count_render_program (h : Items .statement tokens nodes)
    (fits : ∀ t ∈ tokens, t.Fits) (location : Option Location) :
    (render (.program nodes location)).toList.count '\n' =
      ((Tree.program nodes location).nodes.map Tree.feeds).sum +
        (Tree.program nodes location).followedBlocks := by
  have inside : nodes.map (fun tree => (render tree).toList.count '\n') =
      nodes.map Tree.renderedFeeds := List.map_congr_left (h.count_render fits)
  rw [← Tree.renderedFeeds_eq_add, Tree.renderedFeeds_eq, Tree.children, ← inside, Nat.add_assoc,
    ← count_renderAll, render]
  simp [Tree.feeds]

end Rendered

/-- A source is compiled to a text with its line feeds, less those in strings and between
the parentheses of calls, and with one more behind every block comment that something follows on its
line. -/
theorem compile_line_feeds (delimiter : Delimiter) (file source code : String)
    (compiled : compile delimiter file source = .ok code) :
    ∃ tokens tree, tokenize delimiter file source = .ok tokens ∧
      parse delimiter file source = .ok tree ∧
      (code.toList.count '\n' : Int) =
        source.toList.count '\n' - (tokens.map Token.quotedFeeds).sum -
          (withDepth 0 tokens).countP isInnerNewline + tree.followedBlocks := by
  obtain ⟨tree, parsed, rfl⟩ := exists_parse_of_compile compiled
  obtain ⟨tokens, body, lexed, derived, rfl⟩ := parse_eq_ok_iff.mp parsed
  refine ⟨tokens, _, ?_, parsed, ?_⟩
  · rw [tokenize, Cursor.ofSource_eq_between]
    exact scan_of_lexed lexed
  · have ofSource := lexed.count_feeds
    have ofTokens := sum_feeds_keptTokens 0 tokens
    have ofNodes := derived.listed_program.sum_feeds
    have ofCode := derived.count_render_program lexed.fits (some (.start file))
    rw [Tree.nodes, List.map_cons, List.sum_cons] at ofCode
    have root : (Tree.program body (some (.start file))).feeds = 0 := rfl
    omega

/-- A block comment with a call behind it, over four lines. -/
def brokenSource : String := "/*c\nd*/f(\n'a\nb')"

/-- The tokens of `brokenSource`. -/
def brokenTokens : List Token :=
  [⟨.commentBlock, "c\nd", ⟨1, 1, "a.xo"⟩⟩, ⟨.name, "f", ⟨2, 4, "a.xo"⟩⟩,
   ⟨.parenOpen, "(", ⟨2, 5, "a.xo"⟩⟩, ⟨.newline, "\n", ⟨2, 6, "a.xo"⟩⟩,
   ⟨.string, "a\nb", ⟨3, 1, "a.xo"⟩⟩, ⟨.parenClose, ")", ⟨4, 3, "a.xo"⟩⟩]

/-- The tree of `brokenSource`. -/
def brokenTree : Tree :=
  .program [.leaf .commentBlock "c\nd" (some ⟨1, 1, "a.xo"⟩),
    .call "f" [.leaf .string "a\nb" (some ⟨3, 1, "a.xo"⟩)] (some ⟨2, 4, "a.xo"⟩)]
    (some ⟨1, 1, "a.xo"⟩)

theorem broken_source_line_feeds :
    compile .default "a.xo" brokenSource = .ok "//c\n//d\nf(\"a\\nb\")" ∧
    tokenize .default "a.xo" brokenSource = .ok brokenTokens ∧
    parse .default "a.xo" brokenSource = .ok brokenTree ∧
    ("//c\n//d\nf(\"a\\nb\")".toList.count '\n' : Int) = 3 - 1 - 1 + 1 := by
  have compiled : compile .default "a.xo" brokenSource = .ok "//c\n//d\nf(\"a\\nb\")" := by cbv
  have read : tokenize .default "a.xo" brokenSource = .ok brokenTokens := by cbv
  have parsed : parse .default "a.xo" brokenSource = .ok brokenTree := by cbv
  obtain ⟨tokens, tree, found, foundTree, count⟩ := compile_line_feeds .default "a.xo" _ _ compiled
  cases read.symm.trans found
  cases parsed.symm.trans foundTree
  exact ⟨compiled, read, parsed, count⟩

end XoLang
