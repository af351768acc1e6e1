import XoLang.Proofs.Parts
import XoLang.Proofs.Shape
import XoLang.Proofs.Spreading
import XoLang.Proofs.Weaving

/-!
# The parts of generated code

A scan of generated code finds the program again: every string is one string, every line of a
comment is one comment, and no other character stands in either. This holds for every choice of the
characters that end a comment, if the line feed is one of them and no comment of the program holds
another one. It rests on where comments stand: behind a comment the line ends, also when the comment
is the last node of an assignment.
-/

namespace XoLang

open JavaScript

/-- The kinds of comments. -/
def LeafKind.isComment : LeafKind → Bool
  | .comment => true
  | .commentBlock => true
  | _ => false

/-- A tree whose comments hold no character that ends a comment but the line feed. -/
def Tree.Quiet (ends : Char → Bool) (tree : Tree) : Prop :=
  ∀ kind text location, .leaf kind text location ∈ tree.nodes → kind.isComment = true →
    ∀ c ∈ text.toList, ends c = true → c = '\n'

namespace JavaScript

/-- The parts of a leaf. -/
def leafParts : LeafKind → String → List Part
  | .number, text => text.toList.map .code
  | .string, text => [.quoted (Json.plainText text).toList]
  | .boolean, text => text.toList.map .code
  | .comment, text => [.comment text.toList]
  | .commentBlock, text =>
    ((Text.pieces '\n' text.toList).map .comment).intersperse (.code '\n')

def charPart (c : Char) : List Part := [.code c]

/-- Whatever follows the text of a tree, a scan finds the parts of the tree in front of it; behind
a comment the line has to end. -/
def Scans (ends : Char → Bool) (tree : Tree) : Prop :=
  ∀ rest, (tree.endsLine = true ∨ isBlock tree = true → StopsAt (· != '\n') rest) →
    parts ends (weave leafChars (fun c => [c]) tree ++ rest) =
      weave leafParts charPart tree ++ parts ends rest

end JavaScript

section Leaves

variable {ends : Char → Bool}

theorem inert_of_isNamePart {run : List Char} (h : ∀ c ∈ run, isNamePart c = true) : Inert run := by
  intro c mem
  have part := h c mem
  constructor
  · rintro rfl
    exact absurd part (by decide)
  · rintro rfl
    exact absurd part (by decide)

theorem Numeral.inert {text : List Char} (h : Numeral text) : Inert text :=
  inert_of_isNamePart fun c mem => by simp [isNamePart, h.2 c mem]

theorem Identifier.inert {text : List Char} (h : Identifier text) : Inert text := by
  obtain ⟨c, cs, rfl, first, rest⟩ := h
  exact inert_of_isNamePart
    (List.forall_mem_cons.mpr ⟨isNamePart_of_isNameStart first, rest⟩)

theorem parts_marks {run : List Char} (h : Inert run) (rest : List Char) :
    parts ends (run.flatMap (fun c => [c]) ++ rest) = run.flatMap charPart ++ parts ends rest := by
  rw [List.flatMap_singleton', parts_inert h, List.map_eq_flatMap]
  rfl

theorem scans_of_inert {kind : LeafKind} {text : String} {location : Option Location}
    (chars : leafChars kind text = text.toList)
    (found : leafParts kind text = text.toList.map .code) (inert : Inert text.toList) :
    Scans ends (.leaf kind text location) := by
  intro rest _
  rw [weave, weave, chars, found, parts_inert inert]

theorem parts_lines (feed : ends '\n' = true) {rest : List Char}
    (stop : StopsAt (· != '\n') rest) {lines : List (List Char)} (nonempty : lines ≠ [])
    (quiet : ∀ line ∈ lines, ∀ c ∈ line, ends c = false) :
    parts ends ((Text.join "\n" (lines.map lineComment)).toList ++ rest) =
      (lines.map Part.comment).intersperse (.code '\n') ++ parts ends rest := by
  induction lines with
  | nil => exact absurd rfl nonempty
  | cons line lines ih =>
    obtain ⟨first, others⟩ := List.forall_mem_cons.mp quiet
    cases lines with
    | nil =>
      have found := parts_comment feed first stop
      simpa [Text.join, lineComment] using found
    | cons next lines =>
      have more := ih (List.cons_ne_nil next lines) others
      have lineEnd : StopsAt (· != '\n')
          ('\n' :: ((Text.join "\n" ((next :: lines).map lineComment)).toList ++ rest)) :=
        stopsAt_cons (by decide) _
      have plain : '\n' ≠ '/' ∧ '\n' ≠ '"' := by decide
      have found := parts_comment feed first lineEnd
      rw [parts_code plain, more] at found
      simpa [Text.join, lineComment] using found

theorem scans_comment (feed : ends '\n' = true) {text : String} {location : Option Location}
    (oneLine : '\n' ∉ text.toList)
    (quiet : (Tree.leaf .comment text location).Quiet ends) :
    Scans ends (.leaf .comment text location) := by
  intro rest stop
  have silent : ∀ c ∈ text.toList, ends c = false := by
    intro c mem
    by_contra ended
    obtain rfl := quiet _ _ _ (Tree.self_mem_nodes _) rfl c mem (by simpa using ended)
    exact oneLine mem
  have found := parts_comment feed silent (stop (Or.inl rfl))
  simpa [weave, leafChars, leafText, lineComment, leafParts] using found

theorem scans_commentBlock (feed : ends '\n' = true) {text : String} {location : Option Location}
    (quiet : (Tree.leaf .commentBlock text location).Quiet ends) :
    Scans ends (.leaf .commentBlock text location) := by
  intro rest stop
  have silent : ∀ line ∈ Text.pieces '\n' text.toList, ∀ c ∈ line, ends c = false := by
    intro line isPiece c inside
    obtain ⟨mem, notFeed⟩ := mem_of_mem_pieces isPiece inside
    by_contra ended
    exact notFeed (quiet _ _ _ (Tree.self_mem_nodes _) rfl c mem (by simpa using ended))
  exact parts_lines feed (stop (Or.inr rfl)) (pieces_ne_nil '\n' text.toList) silent

end Leaves

section Lists

variable {ends : Char → Bool} {trees : List Tree} {rest : List Char}

theorem inert_lineBreak (tree : Tree) (following : List Tree) :
    Inert (lineBreak tree following).toList := by
  cases following with
  | nil => simp [lineBreak, Inert]
  | cons next following =>
    rw [lineBreak]
    split_ifs <;> simp [Inert]

/-- Behind a comment or an assignment the text goes on with a line feed, if it goes on. -/
theorem stopsAt_behind {tree : Tree} (ended : tree.endsLine = true ∨ isBlock tree = true)
    (lines : ∀ next ∈ trees.head?, tree.endsLine = true → isNewline next = true)
    (stop : StopsAt (· != '\n') rest) :
    StopsAt (· != '\n') ((lineBreak tree trees).toList.flatMap (fun c => [c]) ++
      (weaveAll leafChars (fun c => [c]) trees ++ rest)) := by
  cases trees with
  | nil => exact stop
  | cons next trees =>
    rw [lineBreak]
    by_cases newline : isNewline next = true
    · obtain ⟨location, rfl⟩ := exists_of_isNewline newline
      rw [if_neg (by simp [newline])]
      exact stopsAt_cons (by simp) _
    · -- A comment of one line or an assignment would have a line end behind it.
      have block : isBlock tree = true :=
        ended.resolve_left fun endsLine => newline (lines next rfl endsLine)
      rw [if_pos (by simp [block, newline])]
      exact stopsAt_cons (by decide) _

theorem scans_all (each : ∀ tree ∈ trees, Scans ends tree)
    (lines : trees.IsChain fun a b => a.endsLine = true → isNewline b = true)
    (stop : StopsAt (· != '\n') rest) :
    parts ends (weaveAll leafChars (fun c => [c]) trees ++ rest) =
      weaveAll leafParts charPart trees ++ parts ends rest := by
  induction trees with
  | nil => rfl
  | cons tree trees ih =>
    obtain ⟨first, others⟩ := List.forall_mem_cons.mp each
    obtain ⟨next, lines⟩ := List.isChain_cons.mp lines
    have behind := first _ fun ended => stopsAt_behind ended next stop
    rw [weaveAll, List.append_assoc, List.append_assoc, behind,
      parts_marks (inert_lineBreak tree trees), ih others lines, weaveAll]
    simp only [List.append_assoc]

theorem scans_list (each : ∀ tree ∈ trees, Scans ends tree)
    (inLine : ∀ tree ∈ trees, tree.endsLine = false ∧ isBlock tree = false) :
    parts ends (weaveList leafChars (fun c => [c]) trees ++ rest) =
      weaveList leafParts charPart trees ++ parts ends rest := by
  induction trees with
  | nil => rfl
  | cons tree trees ih =>
    obtain ⟨first, others⟩ := List.forall_mem_cons.mp each
    obtain ⟨goesOn, inLine⟩ := List.forall_mem_cons.mp inLine
    have behind := fun rest => first rest (by simp [goesOn])
    have comma : Inert ", ".toList := by simp [Inert]
    rw [weaveList, weaveList, List.append_assoc, List.append_assoc, behind]
    split_ifs
    · rw [List.nil_append, ih others inLine]
      simp only [List.append_nil, List.append_assoc]
    · rw [parts_marks comma, ih others inLine]
      simp only [List.append_assoc]

end Lists

section Programs

variable {ends : Char → Bool} {context : Context} {tokens : List Token} {nodes : List Tree}

theorem Shaped.inLine {tree : Tree} (h : Shaped .arguments tree) :
    tree.endsLine = false ∧ isBlock tree = false := by
  cases h with
  | number | string | boolean | call => exact ⟨rfl, rfl⟩
  | comment allowed => exact absurd rfl allowed
  | commentBlock allowed => exact absurd rfl allowed

theorem Tree.Quiet.below {tree other : Tree} (h : tree.Quiet ends)
    (below : ∀ node ∈ other.nodes, node ∈ tree.nodes) : other.Quiet ends :=
  fun kind text location mem => h kind text location (below _ mem)

theorem scans_call {name : String} {params : List Tree} {location : Option Location}
    (identifier : Identifier name.toList) (each : ∀ tree ∈ params, Scans ends tree)
    (inLine : ∀ tree ∈ params, tree.endsLine = false ∧ isBlock tree = false) :
    Scans ends (.call name params location) := by
  intro rest _
  have head : Inert (name ++ "(").toList := by
    rw [String.toList_append]
    exact List.forall_mem_append.mpr ⟨identifier.inert, by simp⟩
  have close : (')' : Char) ≠ '/' ∧ ')' ≠ '"' := by decide
  rw [weave, List.append_assoc, List.append_assoc, parts_marks head, scans_list each inLine,
    List.singleton_append, parts_code close, weave]
  simp [charPart]

theorem scans_assignment {name : String} {body : List Tree} {location : Option Location}
    (identifier : Identifier name.toList) (each : ∀ tree ∈ body, Scans ends tree)
    (lines : body.IsChain fun a b => a.endsLine = true → isNewline b = true) :
    Scans ends (.assignment name body location) := by
  intro rest stop
  have head : Inert ("let " ++ name).toList := by
    rw [String.toList_append]
    exact List.forall_mem_append.mpr ⟨by simp, identifier.inert⟩
  have equals : Inert " = ".toList := by simp [Inert]
  rw [weave, List.append_assoc, parts_marks head, weave]
  -- A comment at the end of the body ends where the assignment does.
  split_ifs
  · rw [List.nil_append, List.append_nil]
  · rw [List.append_assoc, parts_marks equals, scans_all each lines (stop (Or.inl rfl))]
    simp only [List.append_assoc]

theorem Single.scans (feed : ends '\n' = true) {t : Token} {node : Option Tree}
    (h : Single context t node) (fits : t.Fits) (quiet : ∀ tree ∈ node.toList, tree.Quiet ends) :
    ∀ tree ∈ node.toList, Scans ends tree := by
  cases h with
  | comma | separator => simp
  | number isNumber => simpa using scans_of_inert rfl rfl (fits.number isNumber).inert
  | string =>
    simp only [Option.toList_some, List.forall_mem_singleton]
    intro rest _
    exact parts_plainText t.text rest
  | boolean _ isWord =>
    have inert : Inert t.text.toList := by
      rcases isWord with same | same <;> simp [same, Inert]
    simpa using scans_of_inert rfl rfl inert
  | comment isComment =>
    simp only [Option.toList_some, List.forall_mem_singleton] at quiet ⊢
    exact scans_comment feed (fits.comment isComment) quiet
  | commentBlock =>
    simp only [Option.toList_some, List.forall_mem_singleton] at quiet ⊢
    exact scans_commentBlock feed quiet
  | newline =>
    simp only [Option.toList_some, List.forall_mem_singleton]
    intro rest _
    exact parts_code (by decide) rest

/-- A scan finds the nodes that were read from the tokens of a source. -/
theorem Items.scans (feed : ends '\n' = true) (h : Items context tokens nodes)
    (fits : ∀ t ∈ tokens, t.Fits) (comments : CommentsEnd tokens)
    (quiet : ∀ node ∈ nodes, node.Quiet ends) : ∀ node ∈ nodes, Scans ends node := by
  induction h with
  | empty => simp
  | single item _ ih =>
    obtain ⟨fit, fits⟩ := List.forall_mem_cons.mp fits
    obtain ⟨first, quiet⟩ := List.forall_mem_append.mp quiet
    exact List.forall_mem_append.mpr ⟨item.scans feed fit first, ih fits comments.tail quiet⟩
  | @call context name paren close inner tokens params nodes naming _ derived _ _ ihInside ih =>
    simp only [List.forall_mem_cons, List.forall_mem_append] at fits quiet ⊢
    obtain ⟨fitName, -, fitInner, -, fits⟩ := fits
    have between : CommentsEnd inner := comments.tail.tail.left_of_append
    have after : CommentsEnd tokens := comments.tail.tail.right_of_append.tail
    have each := ihInside fitInner between fun tree mem =>
      quiet.1.below fun node inside => List.mem_cons_of_mem _ (Tree.mem_allNodes mem inside)
    exact ⟨scans_call (fitName.name naming.1) each fun tree mem => (derived.shaped tree mem).inLine,
      ih fits after quiet.2⟩
  | @declaration word name equals line tokens body nodes _ naming _ _ _ derived _ ihInside ih =>
    simp only [List.forall_mem_cons, List.forall_mem_append] at fits quiet ⊢
    obtain ⟨-, fitName, -, fitLine, fits⟩ := fits
    have between : CommentsEnd line := comments.tail.tail.tail.left_of_append
    have after : CommentsEnd tokens := comments.tail.tail.tail.right_of_append
    have each := ihInside fitLine between fun tree mem =>
      quiet.1.below fun node inside => List.mem_cons_of_mem _ (Tree.mem_allNodes mem inside)
    exact ⟨scans_assignment (fitName.name naming.1) each (derived.endsLine_chain (by simp) between),
      ih fits after quiet.2⟩

theorem parts_of_items (feed : ends '\n' = true) {location : Option Location}
    (h : Items .statement tokens nodes) (fits : ∀ t ∈ tokens, t.Fits)
    (comments : CommentsEnd tokens) (quiet : (Tree.program nodes location).Quiet ends) :
    parts ends (render (.program nodes location)).toList =
      weave leafParts charPart (.program nodes location) := by
  have each := h.scans feed fits comments fun tree mem =>
    quiet.below fun node inside => List.mem_cons_of_mem _ (Tree.mem_allNodes mem inside)
  have found := scans_all each (h.endsLine_chain (by simp) comments) (stopsAt_nil _)
  rw [List.append_nil] at found
  rw [← weave_chars, weave, found, weave]
  exact List.append_nil _

theorem parts_of_parse (feed : ends '\n' = true) {delimiter : Delimiter} {file source : String}
    {tree : Tree} (parsed : parse delimiter file source = .ok tree) (quiet : tree.Quiet ends) :
    parts ends (render tree).toList = weave leafParts charPart tree := by
  obtain ⟨tokens, body, lexed, derived, rfl⟩ := parse_eq_ok_iff.mp parsed
  exact parts_of_items feed derived lexed.fits lexed.commentsEnd quiet

end Programs

end XoLang
