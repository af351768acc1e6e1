import XoLang.Proofs.Comments
import XoLang.Proofs.Reports

/-!
# Programs without their comments

Without its comments a program can still be read, and what is generated for it is the same, apart
from blanks and line ends, if every declaration with a body has more than comments in it. A
declaration of comments and nothing else is written with an equals sign, and one without a body is
not; so the two texts differ by one equals sign for every such declaration.
-/

namespace XoLang

open JavaScript

def Token.isComment (t : Token) : Bool := t.kind = .comment || t.kind = .commentBlock

namespace Tree

def isComment : Tree → Bool
  | .leaf kind _ _ => kind.isComment
  | _ => false

/-- A tree without the comments in its body, if it is an assignment. -/
def uncomment : Tree → Tree
  | .assignment name body location => .assignment name (body.filter (!·.isComment)) location
  | tree => tree

/-- Trees without the comments among them and in the bodies of assignments. -/
def uncommentAll (trees : List Tree) : List Tree := (trees.filter (!·.isComment)).map uncomment

/-- An assignment of comments and nothing else. -/
def isHollow : Tree → Bool
  | .assignment _ body _ => !body.isEmpty && body.all (·.isComment)
  | _ => false

end Tree

theorem Tree.uncommentAll_append (trees others : List Tree) :
    uncommentAll (trees ++ others) = uncommentAll trees ++ uncommentAll others := by
  simp [uncommentAll]

theorem Tree.uncommentAll_eq_self {trees : List Tree}
    (h : ∀ tree ∈ trees, tree.isComment = false ∧ tree.uncomment = tree) :
    uncommentAll trees = trees := by
  have kept : trees.filter (!·.isComment) = trees :=
    List.filter_eq_self.mpr fun tree mem => by simp [(h tree mem).1]
  rw [uncommentAll, kept]
  exact (List.map_congr_left fun tree mem => (h tree mem).2).trans (List.map_id trees)

/-! Reading without comments. -/

section Reading

variable {context : Context} {tokens : List Token} {nodes : List Tree}

theorem Single.isComment {t : Token} {node : Option Tree} (h : Single context t node) :
    ∀ tree ∈ node.toList, tree.isComment = t.isComment := by
  cases h with
  | comma | separator => simp
  | number h | string h | boolean h | comment h | commentBlock h | newline h =>
    simp [Tree.isComment, LeafKind.isComment, Token.isComment, h]

theorem Single.uncomment_eq {t : Token} {node : Option Tree} (h : Single context t node) :
    ∀ tree ∈ node.toList, tree.uncomment = tree := by
  cases h <;> simp [Tree.uncomment]

/-- Among arguments there are no comments. -/
theorem Items.no_comments (h : Items .arguments tokens nodes) :
    ∀ t ∈ tokens, t.isComment = false := by
  generalize inside : Context.arguments = context at h
  induction h with
  | empty => simp
  | single item _ ih =>
    refine List.forall_mem_cons.mpr ⟨?_, ih inside⟩
    cases item with
    | comma h | number h | string h | boolean h | newline h | separator h =>
      simp [Token.isComment, h]
    | comment _ allowed => exact absurd inside.symm allowed
    | commentBlock _ allowed => exact absurd inside.symm allowed
  | call naming opens _ closes _ ihInside ih =>
    simp only [List.forall_mem_cons, List.forall_mem_append]
    exact ⟨by simp [Token.isComment, naming.1], by simp [Token.isComment, opens], ihInside rfl,
      by simp [Token.isComment, closes], ih inside⟩
  | declaration => cases inside

theorem Shaped.uncomment_eq {tree : Tree} (h : Shaped context tree)
    (inside : context ≠ .statement) : tree.uncomment = tree := by
  cases h with
  | assignment => exact absurd rfl inside
  | number | string | boolean | comment | commentBlock | newline | call => rfl

theorem EndsLine.filter (h : EndsLine tokens) :
    EndsLine (tokens.filter (!·.isComment)) := by
  cases tokens with
  | nil => exact stopsAt_nil _
  | cons t tokens =>
    have newline : t.kind = .newline := by simpa using h t tokens rfl
    rw [List.filter_cons_of_pos (by simp [Token.isComment, newline])]
    exact stopsAt_cons (by simp [newline]) _

theorem Items.uncomment (h : Items context tokens nodes) :
    Items context (tokens.filter (!·.isComment)) (Tree.uncommentAll nodes) := by
  induction h with
  | empty => exact .empty
  | @single context t node tokens nodes item _ ih =>
    rw [Tree.uncommentAll_append]
    -- A token is a comment exactly when its node is one, so both stay or both go.
    by_cases commented : t.isComment = true
    · have gone : node.toList.filter (!·.isComment) = [] :=
        List.filter_eq_nil_iff.mpr fun tree mem => by simp [item.isComment tree mem, commented]
      rw [List.filter_cons_of_neg (by simp [commented]), Tree.uncommentAll, gone]
      exact ih
    · have kept : Tree.uncommentAll node.toList = node.toList :=
        Tree.uncommentAll_eq_self fun tree mem =>
          ⟨by simpa [item.isComment tree mem] using commented, item.uncomment_eq tree mem⟩
      rw [List.filter_cons_of_pos (by simpa using commented), kept]
      exact .single item ih
  | @call context name paren close inner tokens params nodes naming opens inside closes _ _ ih =>
    have kept : inner.filter (!·.isComment) = inner :=
      List.filter_eq_self.mpr fun t mem => by simp [inside.no_comments t mem]
    have whole : (name :: paren :: (inner ++ close :: tokens)).filter (!·.isComment) =
        name :: paren :: (inner ++ close :: tokens.filter (!·.isComment)) := by
      have nameKept : name.isComment = false := by simp [Token.isComment, naming.1]
      have parenKept : paren.isComment = false := by simp [Token.isComment, opens]
      have closeKept : close.isComment = false := by simp [Token.isComment, closes]
      simp [nameKept, parenKept, closeKept, kept]
    rw [whole]
    exact .call naming opens inside closes ih
  | @declaration word name equals line tokens body nodes keyword naming binds oneLine ends inside _
      ihInside ih =>
    have whole : (word :: name :: equals :: (line ++ tokens)).filter (!·.isComment) =
        word :: name :: equals ::
          (line.filter (!·.isComment) ++ tokens.filter (!·.isComment)) := by
      simp [Token.isComment, keyword.1, naming.1, binds]
    -- No assignment stands in a body, so the nodes that stay there are not changed.
    have flat : Tree.uncommentAll body = body.filter (!·.isComment) := by
      refine (List.map_congr_left fun tree mem => ?_).trans (List.map_id _)
      exact (inside.shaped tree (List.mem_of_mem_filter mem)).uncomment_eq (by simp)
    rw [flat] at ihInside
    rw [whole]
    exact .declaration keyword naming binds (fun t mem => oneLine t (List.mem_of_mem_filter mem))
      ends.filter ihInside ih

end Reading

/-! What is generated, apart from blanks and line ends. -/

namespace JavaScript

/-- A comment, a space or a line feed. -/
def Part.isLayout (part : Part) : Bool := part.isComment || part.isBlank

/-- The text of a tree without its comments, blanks and line ends. -/
def dense (tree : Tree) : List Char :=
  weave (fun kind text => without Part.isLayout (leafParts kind text))
    (fun c => without Part.isLayout (charPart c)) tree

theorem without_weave_eq_dense (tree : Tree) :
    without Part.isLayout (weave leafParts charPart tree) = dense tree :=
  flatMap_weave leafParts charPart _ tree

theorem without_lines_eq_nil (lines : List (List Char)) :
    without Part.isLayout ((lines.map Part.comment).intersperse (.code '\n')) = [] := by
  induction lines with
  | nil => rfl
  | cons line lines ih =>
    cases lines with
    | nil => rfl
    | cons next lines => exact ih

theorem dense_comment {tree : Tree} (h : tree.isComment = true) : dense tree = [] := by
  cases tree with
  | leaf kind text location =>
    cases kind with
    | number | string | boolean => cases h
    | comment => rfl
    | commentBlock => exact without_lines_eq_nil _
  | newline | assignment | call | program | bare | foreign => cases h

theorem weaveAll_dense (trees : List Tree) :
    weaveAll (fun kind text => without Part.isLayout (leafParts kind text))
      (fun c => without Part.isLayout (charPart c)) trees = trees.flatMap dense := by
  induction trees with
  | nil => rfl
  | cons tree trees ih =>
    have nothing : (lineBreak tree trees).toList.flatMap
        (fun c => without Part.isLayout (charPart c)) = [] := by
      cases trees with
      | nil => rfl
      | cons next trees =>
        rw [lineBreak]
        split_ifs <;> rfl
    rw [weaveAll, nothing, ih, List.append_nil, List.flatMap_cons]
    rfl

theorem flatMap_filter_comments {f : Tree → List Char}
    (nothing : ∀ tree : Tree, tree.isComment = true → f tree = []) (trees : List Tree) :
    (trees.filter (!·.isComment)).flatMap f = trees.flatMap f := by
  induction trees with
  | nil => rfl
  | cons tree trees ih =>
    by_cases commented : tree.isComment = true
    · rw [List.filter_cons_of_neg (by simp [commented]), ih, List.flatMap_cons,
        nothing tree commented, List.nil_append]
    · rw [List.filter_cons_of_pos (by simpa using commented), List.flatMap_cons, ih,
        List.flatMap_cons]

/-- The head of an assignment, and its body behind an equals sign. -/
theorem dense_assignment (name : String) (body : List Tree) (location : Option Location) :
    dense (.assignment name body location) =
      ("let " ++ name).toList.flatMap (fun c => without Part.isLayout (charPart c)) ++
        if body.isEmpty then [] else '=' :: body.flatMap dense := by
  rw [dense, weave, weaveAll_dense]
  rfl

theorem dense_uncomment_assignment (name : String) (body : List Tree)
    (location : Option Location) :
    dense (Tree.assignment name body location).uncomment =
      ("let " ++ name).toList.flatMap (fun c => without Part.isLayout (charPart c)) ++
        if body.all (·.isComment) then [] else '=' :: body.flatMap dense := by
  have nothing : (body.filter (!·.isComment)).isEmpty = body.all (·.isComment) := by
    rw [Bool.eq_iff_iff]
    simp
  rw [Tree.uncomment, dense_assignment, nothing,
    flatMap_filter_comments fun _ commented => dense_comment commented]

/-- Without its comments a hollow declaration loses its equals sign. -/
theorem dense_of_isHollow {tree : Tree} (h : tree.isHollow = true) :
    dense tree = dense tree.uncomment ++ ['='] := by
  cases tree with
  | assignment name body location =>
    simp only [Tree.isHollow, Bool.and_eq_true, Bool.not_eq_true'] at h
    obtain ⟨nonempty, hollow⟩ := h
    have nothing : body.flatMap dense = [] := by
      refine List.flatMap_eq_nil_iff.mpr fun tree mem => ?_
      exact dense_comment (List.all_eq_true.mp hollow tree mem)
    rw [dense_assignment, dense_uncomment_assignment, nothing, if_pos hollow, nonempty,
      List.append_nil]
    rfl
  | leaf | newline | call | program | bare | foreign => cases h

theorem dense_uncomment_of_not_isHollow {tree : Tree} (h : tree.isHollow = false) :
    dense tree.uncomment = dense tree := by
  cases tree with
  | assignment name body location =>
    rw [dense_assignment, dense_uncomment_assignment]
    cases body with
    | nil => rfl
    | cons first rest =>
      have more : (first :: rest).all (·.isComment) = false := by simpa [Tree.isHollow] using h
      rw [more]
      rfl
  | leaf | newline | call | program | bare | foreign => rfl

theorem flatMap_dense_uncommentAll (trees : List Tree) :
    (Tree.uncommentAll trees).flatMap dense = trees.flatMap fun tree => dense tree.uncomment := by
  have nothing : ∀ tree : Tree, tree.isComment = true → dense tree.uncomment = [] := by
    intro tree commented
    cases tree with
    | leaf => exact dense_comment commented
    | newline | assignment | call | program | bare | foreign => cases commented
  rw [Tree.uncommentAll, List.flatMap_map, flatMap_filter_comments nothing]

/-- Two texts of one program differ by one sign for every hollow declaration. -/
theorem length_flatMap_dense (trees : List Tree) :
    (trees.flatMap dense).length =
      (trees.flatMap fun tree => dense tree.uncomment).length + trees.countP (·.isHollow) := by
  induction trees with
  | nil => rfl
  | cons tree trees ih =>
    simp only [List.flatMap_cons, List.length_append, List.countP_cons, ih]
    by_cases hollow : tree.isHollow = true
    · rw [dense_of_isHollow hollow, if_pos hollow, List.length_append, List.length_singleton]
      omega
    · rw [dense_uncomment_of_not_isHollow (by simpa using hollow), if_neg hollow]
      omega

theorem flatMap_dense_eq_iff (trees : List Tree) :
    trees.flatMap dense = (Tree.uncommentAll trees).flatMap dense ↔
      ∀ tree ∈ trees, tree.isHollow = false := by
  rw [flatMap_dense_uncommentAll]
  constructor
  · intro same
    have lengths := length_flatMap_dense trees
    -- Equal texts have equal lengths, and every hollow declaration would add one.
    rw [same, Nat.left_eq_add, List.countP_eq_zero] at lengths
    intro tree mem
    simpa using lengths tree mem
  · intro whole
    exact List.flatMap_congr fun tree mem => (dense_uncomment_of_not_isHollow (whole tree mem)).symm

/-! No comments are left. -/

theorem weave_comments_eq_nil {trees : List Tree} (h : ∀ tree ∈ trees, comments tree = []) :
    weaveAll leafComments (fun _ => []) trees = [] ∧
      weaveList leafComments (fun _ => []) trees = [] := by
  induction trees with
  | nil => exact ⟨rfl, rfl⟩
  | cons tree trees ih =>
    obtain ⟨first, rest⟩ := List.forall_mem_cons.mp h
    rw [comments] at first
    simp [weaveAll, weaveList, first, ih rest]

theorem without_isLayout_eq {found : List Part} (h : found.filterMap Part.comment? = []) :
    without Part.isLayout found = without Part.isBlank found := by
  refine List.flatMap_congr fun part mem => ?_
  cases part with
  | code | quoted => rfl
  | comment text => cases List.filterMap_eq_nil_iff.mp h _ mem

end JavaScript

section Programs

variable {context : Context} {tokens : List Token} {nodes : List Tree}

theorem Items.comments_eq_nil (h : Items context tokens nodes)
    (bare : ∀ t ∈ tokens, t.isComment = false) : ∀ node ∈ nodes, comments node = [] := by
  induction h with
  | empty => simp
  | single item _ ih =>
    obtain ⟨first, bare⟩ := List.forall_mem_cons.mp bare
    refine List.forall_mem_append.mpr ⟨?_, ih bare⟩
    cases item with
    | comma | separator => simp
    | number | string | boolean | newline => simp [comments, weave, leafComments]
    | comment h | commentBlock h => simp [Token.isComment, h] at first
  | call _ _ _ _ _ ihInside ih =>
    simp only [List.forall_mem_cons, List.forall_mem_append] at bare
    obtain ⟨-, -, bareInside, -, bare⟩ := bare
    have inside := weave_comments_eq_nil (ihInside bareInside)
    refine List.forall_mem_cons.mpr ⟨?_, ih bare⟩
    simp [comments, weave, inside.2]
  | declaration _ _ _ _ _ _ _ ihInside ih =>
    simp only [List.forall_mem_cons, List.forall_mem_append] at bare
    obtain ⟨-, -, -, bareLine, bare⟩ := bare
    have inside := weave_comments_eq_nil (ihInside bareLine)
    refine List.forall_mem_cons.mpr ⟨?_, ih bare⟩
    simp [comments, weave, inside.1]

theorem commentsEnd_of_none (bare : ∀ t ∈ tokens, t.isComment = false) : CommentsEnd tokens := by
  induction tokens with
  | nil => exact .nil
  | cons t tokens ih =>
    obtain ⟨first, rest⟩ := List.forall_mem_cons.mp bare
    refine (ih rest).cons fun next _ isComment => ?_
    simp [Token.isComment, isComment] at first

/-- The text of a program that is read from tokens without comments. -/
theorem erase_blanks_of_items (h : Items .statement tokens nodes) (fits : ∀ t ∈ tokens, t.Fits)
    (bare : ∀ t ∈ tokens, t.isComment = false) (location : Option Location) :
    erase isFeed Part.isBlank (render (.program nodes location)).toList =
      dense (.program nodes location) := by
  have found := parts_of_items rfl h fits (commentsEnd_of_none bare)
    (Tree.quiet_isFeed (.program nodes location))
  have none : comments (.program nodes location) = [] :=
    (weave_comments_eq_nil (h.comments_eq_nil bare)).1
  rw [erase, found, ← without_isLayout_eq ((filterMap_weave _).trans none), without_weave_eq_dense]

end Programs

/-- Without its comments an accepted source can still be read. What is generated for it is the same,
apart from comments, blanks and line ends, exactly when no declaration has a body of comments
only. -/
theorem compile_without_comments (delimiter : Delimiter) (file source code : String)
    (compiled : compile delimiter file source = .ok code) :
    ∃ tokens tree other code', tokenize delimiter file source = .ok tokens ∧
      parseTokens file tokens = .ok tree ∧ emit tree = .ok code ∧
      parseTokens file (tokens.filter (!·.isComment)) = .ok other ∧ emit other = .ok code' ∧
      (erase isFeed Part.isLayout code.toList = erase isFeed Part.isBlank code'.toList ↔
        ∀ node ∈ tree.body, node.isHollow = false) := by
  obtain ⟨tree, parsed, rfl⟩ := exists_parse_of_compile compiled
  have found := parts_of_parse rfl parsed tree.quiet_isFeed
  obtain ⟨tokens, body, lexed, derived, rfl⟩ := parse_eq_ok_iff.mp parsed
  have tokenized : tokenize delimiter file source = .ok tokens := scan_of_lexed lexed
  have read : parseTokens file tokens = .ok (.program body (some (.start file))) :=
    parseTokens_eq_ok_iff.mpr ⟨body, rfl, derived⟩
  have readBare : parseTokens file (tokens.filter (!·.isComment)) =
      .ok (.program (Tree.uncommentAll body) (some (.start file))) :=
    parseTokens_eq_ok_iff.mpr ⟨_, rfl, derived.uncomment⟩
  refine ⟨tokens, _, _, _, tokenized, read, emit_of_parseTokens read, readBare,
    emit_of_parseTokens readBare, ?_⟩
  have bare : ∀ t ∈ tokens.filter (!·.isComment), t.isComment = false :=
    fun t mem => by simpa using List.of_mem_filter mem
  have fits : ∀ t ∈ tokens.filter (!·.isComment), t.Fits :=
    fun t mem => lexed.fits t (List.mem_of_mem_filter mem)
  rw [erase, found, without_weave_eq_dense, erase_blanks_of_items derived.uncomment fits bare,
    dense, dense, weave, weave, weaveAll_dense, weaveAll_dense]
  exact flatMap_dense_eq_iff body

/-- The first tokens of a source that starts with a declaration of `x`. -/
def declarationTokens : List Token :=
  [⟨.name, "let", ⟨1, 1, "a.xo"⟩⟩, ⟨.name, "x", ⟨1, 5, "a.xo"⟩⟩, ⟨.equals, "=", ⟨1, 6, "a.xo"⟩⟩]

theorem lexed_declaration {rest : List Char} {tokens : List Token}
    (more : Lexed .default "a.xo" ['l', 'e', 't', ' ', 'x', '='] rest tokens) :
    Lexed .default "a.xo" [] ('l' :: 'e' :: 't' :: ' ' :: 'x' :: '=' :: rest)
      (declarationTokens ++ tokens) := by
  have letters : ∀ d ∈ ['e', 't'], isNamePart d = true :=
    List.forall_mem_cons.mpr ⟨by decide, List.forall_mem_cons.mpr ⟨by decide, by simp⟩⟩
  have word : Spelled .default .name ['l', 'e', 't'] ['l', 'e', 't'] (' ' :: 'x' :: '=' :: rest) :=
    .name (by decide) letters (stopsAt_cons (by decide) _)
  have name : Spelled .default .name ['x'] ['x'] ('=' :: rest) :=
    .name (by decide) (by simp) (stopsAt_cons (by decide) _)
  have equals : Spelled .default .equals ['='] ['='] rest := .punctuation (by decide)
  have behind : Lexed .default "a.xo" ['l', 'e', 't'] (' ' :: 'x' :: '=' :: rest) _ :=
    .gap (by decide) (.spelled name (.spelled equals more))
  exact .spelled word behind

theorem items_declaration {line tokens : List Token} {body nodes : List Tree}
    (oneLine : ∀ t ∈ line, t.kind ≠ .newline) (ends : EndsLine tokens)
    (inside : Items .assignment line body) (rest : Items .statement tokens nodes) :
    Items .statement (declarationTokens ++ (line ++ tokens))
      (.assignment "x" body (some ⟨1, 1, "a.xo"⟩) :: nodes) := by
  have naming : Naming ⟨.name, "x", ⟨1, 5, "a.xo"⟩⟩ := ⟨rfl, by decide⟩
  exact @Items.declaration _ _ _ line tokens body nodes ⟨rfl, rfl⟩ naming rfl oneLine ends inside
    rest

theorem initialiser_before_comment :
    ∃ tokens other, tokenize .default "a.xo" "let x=7//c" = .ok tokens ∧
      parseTokens "a.xo" (tokens.filter (!·.isComment)) = .ok other ∧
      emit other = .ok "let x = 7" ∧
      erase isFeed Part.isLayout "let x = 7//c".toList =
        erase isFeed Part.isBlank "let x = 7".toList := by
  have ends : NumberEnds ['/', '/', 'c'] := ⟨stopsAt_cons (by decide) _, by simp⟩
  have seven : Spelled .default .number ['7'] ['7'] ['/', '/', 'c'] :=
    .number (c := '7') (by decide) .done ends
  have comment : Spelled .default .comment ['c'] ['/', '/', 'c'] [] :=
    .comment (by decide) (stopsAt_nil _)
  have lexed : Lexed .default "a.xo" [] "let x=7//c".toList (declarationTokens ++
      ([⟨.number, "7", ⟨1, 7, "a.xo"⟩⟩, ⟨.comment, "c", ⟨1, 8, "a.xo"⟩⟩] ++ [])) :=
    lexed_declaration (.spelled seven (.spelled comment (.done (by simp [Gap]))))
  have line : Items .assignment
      [⟨.number, "7", ⟨1, 7, "a.xo"⟩⟩, ⟨.comment, "c", ⟨1, 8, "a.xo"⟩⟩]
      [.leaf .number "7" (some ⟨1, 7, "a.xo"⟩), .leaf .comment "c" (some ⟨1, 8, "a.xo"⟩)] :=
    .single (.number rfl) (.single (.comment rfl (by simp)) .empty)
  have derived := items_declaration (by simp) (stopsAt_nil _) line .empty
  have parsed := parse_eq_ok_iff.mpr ⟨_, _, lexed, derived, rfl⟩
  have compiled : compile .default "a.xo" "let x=7//c" = .ok "let x = 7//c" := by
    rw [compile_eq_map, parsed]
    rfl
  obtain ⟨tokens, tree, other, code', tokenized, read, -, readBare, emitted, same⟩ :=
    compile_without_comments _ _ _ _ compiled
  obtain rfl := Except.ok.inj (tokenized.symm.trans (scan_of_lexed lexed))
  obtain rfl := Except.ok.inj (read.symm.trans (parseTokens_eq_ok_iff.mpr ⟨_, rfl, derived⟩))
  obtain rfl :=
    Except.ok.inj (readBare.symm.trans (parseTokens_eq_ok_iff.mpr ⟨_, rfl, derived.uncomment⟩))
  obtain rfl : code' = "let x = 7" := Except.ok.inj (emitted.symm.trans rfl)
  exact ⟨_, _, tokenized, readBare, emitted, same.mpr (by decide)⟩

/-- With a comment behind its equals sign, a declaration takes what comes in the next line for its
body. -/
theorem comment_in_place_of_body :
    compile .default "a.xo" "let x=//c\n5" = .ok "let x = //c\n5" ∧
    (∃ tokens other, tokenize .default "a.xo" "let x=//c\n5" = .ok tokens ∧
      parseTokens "a.xo" (tokens.filter (!·.isComment)) = .ok other ∧
      emit other = .ok "let x\n5") ∧
    erase isFeed Part.isLayout "let x = //c\n5".toList = "letx=5".toList ∧
    erase isFeed Part.isBlank "let x\n5".toList = "letx5".toList := by
  have comment : Spelled .default .comment ['c'] ['/', '/', 'c'] ['\n', '5'] :=
    .comment (by decide) (stopsAt_cons (by decide) _)
  have five : Spelled .default .number ['5'] ['5'] [] :=
    .number (c := '5') (by decide) .done ⟨stopsAt_nil _, by simp⟩
  have lexed : Lexed .default "a.xo" [] "let x=//c\n5".toList (declarationTokens ++
      ([⟨.comment, "c", ⟨1, 7, "a.xo"⟩⟩] ++
        [⟨.newline, "\n", ⟨1, 10, "a.xo"⟩⟩, ⟨.number, "5", ⟨2, 1, "a.xo"⟩⟩])) :=
    lexed_declaration (.spelled comment (.spelled .newline (.spelled five (.done (by simp [Gap])))))
  have line : Items .assignment [⟨.comment, "c", ⟨1, 7, "a.xo"⟩⟩]
      [.leaf .comment "c" (some ⟨1, 7, "a.xo"⟩)] :=
    .single (.comment rfl (by simp)) .empty
  have rest : Items .statement [⟨.newline, "\n", ⟨1, 10, "a.xo"⟩⟩, ⟨.number, "5", ⟨2, 1, "a.xo"⟩⟩]
      [.newline (some ⟨1, 10, "a.xo"⟩), .leaf .number "5" (some ⟨2, 1, "a.xo"⟩)] :=
    .single (.newline rfl) (.single (.number rfl) .empty)
  have derived := items_declaration (by simp) (stopsAt_cons rfl _) line rest
  have parsed := parse_eq_ok_iff.mpr ⟨_, _, lexed, derived, rfl⟩
  refine ⟨?_, ⟨_, _, scan_of_lexed lexed, parseTokens_eq_ok_iff.mpr ⟨_, rfl, derived.uncomment⟩,
    rfl⟩, by decide, by decide⟩
  rw [compile_eq_map, parsed]
  rfl

end XoLang
