import Mathlib
import XoLang.Proofs.Standing

/-!
# Nodes in the order of their tokens

The nodes below a program, each in front of those below it, are its tokens in their order: without
commas, parentheses, equals signs and the line ends inside calls, and with the word of a declaration
and the name behind it as one. So the places of the nodes grow as those of the tokens do.
-/

namespace XoLang

/-- What a node says by itself: the label of its kind, its text or name, and its place. -/
structure NodeHead where
  label : String
  caption : Option String
  location : Option Location
  deriving DecidableEq

def Tree.head (tree : Tree) : NodeHead :=
  ⟨tree.label, tree.caption?.map Prod.snd, tree.location⟩

/-- How many parentheses are open behind a token of a kind. -/
def TokenKind.deepen : TokenKind → Nat → Nat
  | .parenOpen, depth => depth + 1
  | .parenClose, depth => depth - 1
  | _, depth => depth

/-- Tokens with the number of parentheses that are open in front of each. -/
def withDepth : Nat → List Token → List (Token × Nat)
  | _, [] => []
  | depth, t :: ts => (t, depth) :: withDepth (t.kind.deepen depth) ts

/-- A line end between the parentheses of a call. -/
def isInnerNewline (place : Token × Nat) : Bool := place.1.kind = .newline && 0 < place.2

/-- Tokens of which nothing is left in the tree. -/
def isDropped (place : Token × Nat) : Bool :=
  place.1.kind = .comma || place.1.kind = .parenOpen || place.1.kind = .parenClose ||
    place.1.kind = .equals || isInnerNewline place

/-- The tokens that are left in the tree. -/
def keptTokens (depth : Nat) (tokens : List Token) : List Token :=
  ((withDepth depth tokens).filter (!isDropped ·)).map Prod.fst

/-- The kind of the node that a token gives. -/
def Token.nodeLabel (t : Token) : String :=
  match t.kind with
  | .number => "LiteralNumber"
  | .string => "LiteralString"
  | .comment => "Comment"
  | .commentBlock => "CommentBlock"
  | .newline => "NewLine"
  | .name => if t.text = "true" || t.text = "false" then "LiteralBoolean" else "FunctionCall"
  | kind => kind.label

/-- What the node of a token says. -/
def Token.head (t : Token) : NodeHead :=
  ⟨t.nodeLabel, if t.kind = .newline then none else some t.text, some t.location⟩

/-- What the nodes of tokens say; the word of a declaration and the name behind it give one node,
with the name and at the place of the word. -/
def headsOf : List Token → List NodeHead
  | [] => []
  | [t] => [t.head]
  | t :: u :: ts =>
    if t.kind = .name && t.text = "let" then
      ⟨"VariableAssignment", some u.text, some t.location⟩ :: headsOf ts
    else t.head :: headsOf (u :: ts)

/-- Tokens and nodes one behind the other: a token and its node, the name of a call and the call,
the word and the name of a declaration and the declaration. -/
inductive Listed : List Token → List Tree → Prop
  | done : Listed [] []
  | single {context : Context} {t : Token} {node : Tree} {tokens : List Token} {nodes : List Tree}
      (item : Single context t (some node)) (rest : Listed tokens nodes) :
      Listed (t :: tokens) (node :: nodes)
  | call {name : Token} {params : List Tree} {tokens : List Token} {nodes : List Tree}
      (naming : Naming name) (rest : Listed tokens nodes) :
      Listed (name :: tokens) (.call name.text params (some name.location) :: nodes)
  | declaration {word name : Token} {body : List Tree} {tokens : List Token} {nodes : List Tree}
      (keyword : word.kind = .name ∧ word.text = "let") (naming : Naming name)
      (rest : Listed tokens nodes) :
      Listed (word :: name :: tokens) (.assignment name.text body (some word.location) :: nodes)

/-! Tokens that are left. -/

section Kept

variable {depth : Nat} {t : Token}

theorem keptTokens_of_dropped (h : isDropped (t, depth) = true) (ts : List Token) :
    keptTokens depth (t :: ts) = keptTokens (t.kind.deepen depth) ts := by
  rw [keptTokens, withDepth, List.filter_cons_of_neg (by simp [h]), keptTokens]

theorem keptTokens_of_not_dropped (h : isDropped (t, depth) = false) (ts : List Token) :
    keptTokens depth (t :: ts) = t :: keptTokens (t.kind.deepen depth) ts := by
  rw [keptTokens, withDepth, List.filter_cons_of_pos (by simp [h]), List.map_cons, keptTokens]

theorem map_fst_withDepth (depth : Nat) (tokens : List Token) :
    (withDepth depth tokens).map Prod.fst = tokens := by
  induction tokens generalizing depth with
  | nil => rfl
  | cons t ts ih => rw [withDepth, List.map_cons, ih]

/-- No token is left twice, and their order stays. -/
theorem keptTokens_sublist (depth : Nat) (tokens : List Token) :
    (keptTokens depth tokens).Sublist tokens := by
  have whole :=
    (List.filter_sublist (p := (!isDropped ·)) (l := withDepth depth tokens)).map Prod.fst
  rw [map_fst_withDepth] at whole
  exact whole

/-- A token of a kind that gives a node wherever it stands. -/
theorem keptTokens_of_kind (named : t.kind ∈ [.name, .number, .string, .comment, .commentBlock])
    (depth : Nat) (ts : List Token) : keptTokens depth (t :: ts) = t :: keptTokens depth ts := by
  simp only [List.mem_cons, List.not_mem_nil, or_false] at named
  rcases named with kind | kind | kind | kind | kind <;>
    rw [keptTokens_of_not_dropped (by simp [isDropped, isInnerNewline, kind]), kind] <;> rfl

end Kept

/-! Nodes of tokens. -/

theorem headsOf_cons {t : Token} (other : ¬ (t.kind = .name ∧ t.text = "let")) (ts : List Token) :
    headsOf (t :: ts) = t.head :: headsOf ts := by
  cases ts with
  | nil => rfl
  | cons u ts => rw [headsOf, if_neg (by simpa using other)]

theorem headsOf_declaration {word : Token} (keyword : word.kind = .name ∧ word.text = "let")
    (name : Token) (ts : List Token) :
    headsOf (word :: name :: ts) =
      ⟨"VariableAssignment", some name.text, some word.location⟩ :: headsOf ts := by
  rw [headsOf, if_pos (by simp [keyword])]

section Derived

variable {context : Context} {tokens : List Token} {nodes : List Tree} {depth : Nat}

/-- A token that gives no node is not left, any other is. -/
theorem Single.keptTokens {t : Token} {node : Option Tree} (h : Single context t node)
    (inArguments : context = .arguments ↔ 0 < depth) (ts : List Token) :
    keptTokens depth (t :: ts) =
      if node.isSome then t :: keptTokens depth ts else keptTokens depth ts := by
  cases h with
  | comma kind =>
    rw [keptTokens_of_dropped (by simp [isDropped, kind]), kind]
    rfl
  | separator kind =>
    have inside : 0 < depth := inArguments.mp rfl
    rw [keptTokens_of_dropped (by simp [isDropped, isInnerNewline, kind, inside]), kind]
    rfl
  | newline kind =>
    have outside : ¬ 0 < depth := fun inside => by cases inArguments.mpr inside
    rw [keptTokens_of_not_dropped (by simp [isDropped, isInnerNewline, kind, outside]), kind]
    rfl
  | number kind | string kind | comment kind | commentBlock kind | boolean kind =>
    exact keptTokens_of_kind (by simp [kind]) depth ts

theorem Single.nodes_eq {t : Token} {node : Tree} (h : Single context t (some node)) :
    node.nodes = [node] := by
  cases h <;> rfl

/-- The nodes of derived tokens, each in front of those below it, come in the order of the tokens
that are left. -/
theorem Items.listed (h : Items context tokens nodes)
    (inArguments : context = .arguments ↔ 0 < depth) {rest : List Token} {others : List Tree}
    (behind : Listed (keptTokens depth rest) others) :
    Listed (keptTokens depth (tokens ++ rest)) (Tree.allNodes nodes ++ others) := by
  induction h generalizing depth rest others with
  | empty => exact behind
  | @single context t node tokens nodes item _ ih =>
    rw [List.cons_append, item.keptTokens inArguments]
    cases node with
    | none => exact ih inArguments behind
    | some node =>
      rw [Option.toList_some, List.singleton_append, Tree.allNodes, item.nodes_eq]
      exact .single item (ih inArguments behind)
  | @call context name paren close inner tokens params nodes naming opens _ closes _ ihInside ih =>
    have opened : keptTokens depth (paren :: (inner ++ close :: (tokens ++ rest))) =
        keptTokens (depth + 1) (inner ++ close :: (tokens ++ rest)) := by
      rw [keptTokens_of_dropped (by simp [isDropped, opens]), opens]
      rfl
    have closed : keptTokens (depth + 1) (close :: (tokens ++ rest)) =
        keptTokens depth (tokens ++ rest) := by
      rw [keptTokens_of_dropped (by simp [isDropped, closes]), closes]
      rfl
    have later : Listed (keptTokens (depth + 1) (close :: (tokens ++ rest)))
        (Tree.allNodes nodes ++ others) := by
      rw [closed]
      exact ih inArguments behind
    have whole : name :: paren :: (inner ++ close :: tokens) ++ rest =
        name :: paren :: (inner ++ close :: (tokens ++ rest)) := by simp
    rw [whole, keptTokens_of_kind (by simp [naming.1]), opened, Tree.allNodes, Tree.nodes,
      List.append_assoc, List.cons_append]
    exact .call naming (ihInside (by simp) later)
  | @declaration word name equals line tokens body nodes keyword naming binds _ _ _ _ ihInside ih =>
    have bound : keptTokens depth (equals :: (line ++ (tokens ++ rest))) =
        keptTokens depth (line ++ (tokens ++ rest)) := by
      rw [keptTokens_of_dropped (by simp [isDropped, binds]), binds]
      rfl
    have whole : word :: name :: equals :: (line ++ tokens) ++ rest =
        word :: name :: equals :: (line ++ (tokens ++ rest)) := by simp
    rw [whole, keptTokens_of_kind (by simp [keyword.1]), keptTokens_of_kind (by simp [naming.1]),
      bound, Tree.allNodes, Tree.nodes, List.append_assoc, List.cons_append]
    have later := ih inArguments behind
    exact .declaration keyword naming (ihInside (by simpa using inArguments) later)

theorem Items.listed_program (h : Items .statement tokens nodes) :
    Listed (keptTokens 0 tokens) (Tree.allNodes nodes) := by
  have listed : Listed (keptTokens 0 (tokens ++ [])) (Tree.allNodes nodes ++ []) :=
    h.listed (by simp) .done
  rwa [List.append_nil, List.append_nil] at listed

theorem Single.head_eq {t : Token} {node : Tree} (h : Single context t (some node)) :
    t.head = node.head := by
  cases h with
  | number kind | string kind | comment kind | commentBlock kind | newline kind =>
    rw [Token.head, Token.nodeLabel, kind]
    rfl
  | boolean kind word =>
    simp [Token.head, Token.nodeLabel, kind, word, Tree.head, Tree.label, LeafKind.label,
      Tree.caption?, Tree.location]

theorem Listed.headsOf_eq (h : Listed tokens nodes) : headsOf tokens = nodes.map Tree.head := by
  induction h with
  | done => rfl
  | single item _ ih => rw [headsOf_cons item.not_keyword, ih, item.head_eq, List.map_cons]
  | @call name params _ _ naming _ ih =>
    have free : name.text ≠ "let" ∧ name.text ≠ "true" ∧ name.text ≠ "false" := by
      simpa [reservedWords] using naming.2
    have head : name.head = (Tree.call name.text params (some name.location)).head := by
      simp [Token.head, Token.nodeLabel, naming.1, free, Tree.head, Tree.label, Tree.caption?,
        Tree.location]
    rw [headsOf_cons naming.not_keyword, ih, head, List.map_cons]
  | declaration keyword _ _ ih =>
    rw [headsOf_declaration keyword, ih]
    rfl

end Derived

/-! Places. -/

section Places

variable {delimiter : Delimiter} {file : String} {before rest : List Char} {tokens : List Token}

/-- A token of a source stands where its spelling starts. -/
theorem Lexed.exists_spelled (h : Lexed delimiter file before rest tokens) :
    ∀ t ∈ tokens, ∃ used raw after text, rest = used ++ raw ++ after ∧
      Spelled delimiter t.kind text raw after ∧ t.text = String.ofList text ∧
      t.location = placeAfter file (before ++ used) := by
  induction h with
  | done => simp
  | @token before w raw text rest kind tokens _ spelled _ ih =>
    intro t mem
    rcases List.mem_cons.mp mem with rfl | later
    · exact ⟨w, raw, rest, text, rfl, spelled, rfl, rfl⟩
    · obtain ⟨used, raw', after, text', rfl, spelled', same, place⟩ := ih t later
      refine ⟨w ++ raw ++ used, raw', after, text', ?_, spelled', same, ?_⟩
      · simp only [List.append_assoc]
      · rw [place]
        simp only [List.append_assoc]

/-- Tokens of a source stand one behind the other. -/
theorem Lexed.pairwise (h : Lexed delimiter file before rest tokens) :
    tokens.Pairwise fun t u => t.location.Before u.location := by
  induction h with
  | done => exact .nil
  | @token before w raw text rest kind tokens _ spelled more ih =>
    refine List.Pairwise.cons ?_ ih
    intro t mem
    obtain ⟨used, _, _, _, -, -, -, place⟩ := more.exists_spelled t mem
    have nonempty : raw ++ used ≠ [] := by simp [spelled.nonempty]
    have order := placeAfter_before file (before ++ w) nonempty
    rw [place, List.append_assoc (before ++ w)]
    exact order

theorem map_location_headsOf (tokens : List Token) :
    ((headsOf tokens).map NodeHead.location).Sublist (tokens.map fun t => some t.location) := by
  fun_induction headsOf tokens with
  | case1 => exact .slnil
  | case2 t => exact List.Sublist.refl _
  | case3 t u ts _ ih => exact (ih.cons _).cons_cons _
  | case4 t u ts _ ih => exact ih.cons_cons _

end Places

/-- The nodes below a program are the tokens that are left of its tokens, none of them twice and all
in their order. The nodes of a source stand one behind the other. -/
theorem parseTokens_lists_tokens (file : String) (tokens : List Token) (tree : Tree)
    (parsed : parseTokens file tokens = .ok tree) :
    (keptTokens 0 tokens).Sublist tokens ∧
    tree.nodes.tail.map Tree.head = headsOf (keptTokens 0 tokens) ∧
    ∀ delimiter file' source, tokenize delimiter file' source = .ok tokens →
      ∃ places : List Location, tree.nodes.tail.map Tree.location = places.map some ∧
        places.Pairwise Location.Before := by
  obtain ⟨body, rfl, derived⟩ := parseTokens_eq_ok_iff.mp parsed
  have kept := keptTokens_sublist 0 tokens
  have listed : (Tree.allNodes body).map Tree.head = headsOf (keptTokens 0 tokens) :=
    derived.listed_program.headsOf_eq.symm
  refine ⟨kept, listed, ?_⟩
  intro delimiter file' source read
  have scanned : ((Cursor.between [] source.toList).scan delimiter file').result = .ok tokens :=
    read
  have order := (lexed_of_scan scanned).pairwise
  have places : (Tree.allNodes body).map Tree.location =
      (headsOf (keptTokens 0 tokens)).map NodeHead.location := by
    rw [← listed, List.map_map]
    rfl
  have sublist := (map_location_headsOf (keptTokens 0 tokens)).trans (kept.map _)
  obtain ⟨chosen, fewer, same⟩ := List.sublist_map_iff.mp sublist
  refine ⟨chosen.map Token.location, ?_, ?_⟩
  · rw [List.map_map]
    exact places.trans same
  · exact List.pairwise_map.mpr (order.sublist fewer)

/-- The tokens of a declaration and of a call over two lines. -/
def callTokens : List Token :=
  [⟨.name, "let", ⟨1, 1, "a.xo"⟩⟩, ⟨.name, "x", ⟨1, 5, "a.xo"⟩⟩, ⟨.equals, "=", ⟨1, 6, "a.xo"⟩⟩,
   ⟨.newline, "\n", ⟨1, 7, "a.xo"⟩⟩, ⟨.name, "f", ⟨2, 1, "a.xo"⟩⟩,
   ⟨.parenOpen, "(", ⟨2, 2, "a.xo"⟩⟩, ⟨.newline, "\n", ⟨2, 3, "a.xo"⟩⟩,
   ⟨.name, "true", ⟨3, 1, "a.xo"⟩⟩, ⟨.parenClose, ")", ⟨3, 5, "a.xo"⟩⟩]

/-- The tree of `callTokens`. -/
def callTree : Tree :=
  .program [.assignment "x" [] (some ⟨1, 1, "a.xo"⟩), .newline (some ⟨1, 7, "a.xo"⟩),
    .call "f" [.leaf .boolean "true" (some ⟨3, 1, "a.xo"⟩)] (some ⟨2, 1, "a.xo"⟩)]
    (some ⟨1, 1, "a.xo"⟩)

theorem call_over_lines_listed :
    parseTokens "a.xo" callTokens = .ok callTree ∧
    callTree.nodes.tail.map Tree.head =
      [⟨"VariableAssignment", some "x", some ⟨1, 1, "a.xo"⟩⟩,
       ⟨"NewLine", none, some ⟨1, 7, "a.xo"⟩⟩, ⟨"FunctionCall", some "f", some ⟨2, 1, "a.xo"⟩⟩,
       ⟨"LiteralBoolean", some "true", some ⟨3, 1, "a.xo"⟩⟩] ∧
    tokenize .default "a.xo" "let x=\nf(\ntrue)" = .ok callTokens ∧
    ∃ places : List Location, callTree.nodes.tail.map Tree.location = places.map some ∧
      places.Pairwise Location.Before := by
  have parsed : parseTokens "a.xo" callTokens = .ok callTree := by cbv
  have read : tokenize .default "a.xo" "let x=\nf(\ntrue)" = .ok callTokens := by cbv
  obtain ⟨-, listed, order⟩ := parseTokens_lists_tokens "a.xo" callTokens callTree parsed
  exact ⟨parsed, listed, read, order .default "a.xo" "let x=\nf(\ntrue)" read⟩

end XoLang
