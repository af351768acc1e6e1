import Mathlib.Data.List.Chain
import XoLang.Proofs.Rendering

/-!
# Nodes as they stand in a program

What is known of the nodes of a program that was read: their texts are those of tokens, a comment
and an assignment end their line, and every node has a place. Together with three conditions on a
program (`Readable`) this is all that reading its text again needs (`Stands` and `Follows`).
-/

namespace XoLang

open JavaScript

namespace Tree

mutual

/-- A tree and all trees below it. -/
def nodes : Tree → List Tree
  | .leaf kind text location => [.leaf kind text location]
  | .newline location => [.newline location]
  | .assignment name body location => .assignment name body location :: allNodes body
  | .call name params location => .call name params location :: allNodes params
  | .program body location => .program body location :: allNodes body
  | .bare location => [.bare location]
  | .foreign kind location => [.foreign kind location]
termination_by structural tree => tree

/-- Some trees and all trees below them. -/
def allNodes : List Tree → List Tree
  | [] => []
  | tree :: trees => nodes tree ++ allNodes trees
termination_by structural trees => trees

end

/-- The trees that follow each other in a program or in an assignment. -/
def body : Tree → List Tree
  | .program body _ => body
  | .assignment _ body _ => body
  | _ => []

/-- Line ends and comments. -/
def isLayout : Tree → Bool
  | .newline _ => true
  | .leaf .comment _ _ => true
  | .leaf .commentBlock _ _ => true
  | _ => false

/-- Trees behind which a line ends. -/
def endsLine : Tree → Bool
  | .leaf .comment _ _ => true
  | .assignment _ _ _ => true
  | _ => false

theorem self_mem_nodes (tree : Tree) : tree ∈ tree.nodes := by
  cases tree <;> simp [nodes]

theorem mem_allNodes {trees : List Tree} {tree node : Tree} (mem : tree ∈ trees)
    (below : node ∈ tree.nodes) : node ∈ allNodes trees := by
  induction trees with
  | nil => cases mem
  | cons first trees ih =>
    rw [allNodes, List.mem_append]
    rcases List.mem_cons.mp mem with rfl | mem
    · exact Or.inl below
    · exact Or.inr (ih mem)

theorem exists_of_mem_allNodes {trees : List Tree} {node : Tree} (h : node ∈ allNodes trees) :
    ∃ tree ∈ trees, node ∈ tree.nodes := by
  induction trees with
  | nil => cases h
  | cons first trees ih =>
    rw [allNodes, List.mem_append] at h
    rcases h with below | rest
    · exact ⟨first, List.mem_cons_self, below⟩
    · obtain ⟨tree, mem, below⟩ := ih rest
      exact ⟨tree, List.mem_cons_of_mem first mem, below⟩

/-- A text that needs no escapes between double quotes. -/
def PlainText (text : List Char) : Prop := ∀ c ∈ text, c ≠ '"' ∧ c ≠ '\\' ∧ 0x20 ≤ c.toNat

/-- A tree whose text can be read again: strings need no escapes, no assignment is without a body,
and of two trees that follow each other one is a line end or a comment. -/
structure Readable (tree : Tree) : Prop where
  strings : ∀ text location, .leaf .string text location ∈ tree.nodes → PlainText text.toList
  bodies : ∀ name location, .assignment name [] location ∉ tree.nodes
  spaced : ∀ node ∈ tree.nodes,
    node.body.IsChain fun a b => a.isLayout = true ∨ b.isLayout = true

theorem Readable.below {tree other : Tree} (h : tree.Readable)
    (below : ∀ node ∈ other.nodes, node ∈ tree.nodes) : other.Readable where
  strings text location mem := h.strings text location (below _ mem)
  bodies name location mem := h.bodies name location (below _ mem)
  spaced node mem := h.spaced node (below _ mem)

end Tree

/-! Tokens. -/

/-- The text of a number. -/
def Numeral (text : List Char) : Prop := text ≠ [] ∧ ∀ c ∈ text, isDigit c = true

/-- The text of a name or of a word. -/
def Identifier (text : List Char) : Prop :=
  ∃ c cs, text = c :: cs ∧ isNameStart c = true ∧ ∀ d ∈ cs, isNamePart d = true

/-- A token with a text of its kind. -/
structure Token.Fits (t : Token) : Prop where
  number : t.kind = .number → Numeral t.text.toList
  name : t.kind = .name → Identifier t.text.toList
  comment : t.kind = .comment → '\n' ∉ t.text.toList

/-- Every comment ends its line. -/
def CommentsEnd (tokens : List Token) : Prop :=
  tokens.IsChain fun t u => t.kind = .comment → u.kind = .newline

theorem ne_underscore_of_isDigit {c : Char} (h : isDigit c = true) : c ≠ '_' := by
  rintro rfl
  exact absurd h (by decide)

theorem DigitGroups.digits {groups : List Char} (h : DigitGroups groups) :
    ∀ c ∈ groups.filter (· != '_'), isDigit c = true := by
  induction h with
  | done => simp
  | digit hc _ ih =>
    rw [List.filter_cons_of_pos (by simpa using ne_underscore_of_isDigit hc)]
    exact List.forall_mem_cons.mpr ⟨hc, ih⟩
  | separated hc _ ih =>
    rw [List.filter_cons_of_neg (by simp),
      List.filter_cons_of_pos (by simpa using ne_underscore_of_isDigit hc)]
    exact List.forall_mem_cons.mpr ⟨hc, ih⟩

section Tokens

variable {delimiter : Delimiter} {file : String} {before rest : List Char} {tokens : List Token}

theorem Spelled.fits {kind : TokenKind} {text raw : List Char}
    (h : Spelled delimiter kind text raw rest) (location : Location) :
    Token.Fits ⟨kind, String.ofList text, location⟩ := by
  cases h with
  | newline | commentBlock | string => exact ⟨by simp, by simp, by simp⟩
  | punctuation mark =>
    simp only [punctuationMarks, List.mem_cons, Prod.mk.injEq, List.not_mem_nil, or_false] at mark
    rcases mark with ⟨rfl, rfl⟩ | ⟨rfl, rfl⟩ | ⟨rfl, rfl⟩ | ⟨rfl, rfl⟩ | ⟨rfl, rfl⟩ | ⟨rfl, rfl⟩ <;>
      exact ⟨by simp, by simp, by simp⟩
  | comment oneLine _ => exact ⟨by simp, by simp, fun _ => by simpa using oneLine⟩
  | @number c groups _ first more _ =>
    have digits := (DigitGroups.digit first more).digits
    have nonempty : (c :: groups).filter (· != '_') ≠ [] := by
      rw [List.filter_cons_of_pos (by simpa using ne_underscore_of_isDigit first)]
      simp
    refine ⟨fun _ => ?_, by simp, by simp⟩
    rw [String.toList_ofList]
    exact ⟨nonempty, digits⟩
  | @name c cs _ first more _ =>
    exact ⟨by simp, fun _ => ⟨c, cs, by simp, first, more⟩, by simp⟩

theorem Lexed.fits (h : Lexed delimiter file before rest tokens) : ∀ t ∈ tokens, t.Fits := by
  induction h with
  | done => simp
  | token _ spelled _ ih => exact List.forall_mem_cons.mpr ⟨spelled.fits _, ih⟩

/-- Behind a line feed or the end of a source come the tokens of a new line. -/
theorem Lexed.endsLine (h : Lexed delimiter file before rest tokens)
    (ends : StopsAt (· != '\n') rest) : EndsLine tokens := by
  have scanned := scan_of_lexed h
  cases rest with
  | nil =>
    rw [Cursor.scan_end] at scanned
    cases scanned
    exact stopsAt_nil _
  | cons c rest =>
    have lineFeed : c = '\n' := by simpa using ends c rest rfl
    have spelled : Spelled delimiter .newline ['\n'] ['\n'] rest := .newline
    rw [lineFeed, ← List.singleton_append, scan_of_spelled spelled] at scanned
    obtain ⟨more, -, rfl⟩ := Scan.result_add_eq_ok_iff.mp scanned
    exact stopsAt_cons (by simp) more

theorem Spelled.ends_of_comment {text raw : List Char}
    (h : Spelled delimiter .comment text raw rest) : StopsAt (· != '\n') rest := by
  cases h with
  | punctuation mark => simp [punctuationMarks] at mark
  | comment _ ends => exact ends

theorem Lexed.commentsEnd (h : Lexed delimiter file before rest tokens) : CommentsEnd tokens := by
  induction h with
  | done => exact .nil
  | @token before w raw text rest kind tokens _ spelled more ih =>
    refine List.IsChain.cons ih ?_
    rintro next head rfl
    obtain ⟨others, rfl⟩ := List.head?_eq_some_iff.mp head
    simpa using more.endsLine spelled.ends_of_comment next others rfl

end Tokens

/-! Nodes. -/

theorem exists_of_isBlock {tree : Tree} (h : isBlock tree = true) :
    ∃ text location, tree = .leaf .commentBlock text location := by
  cases tree with
  | leaf kind text location => cases kind <;> first | exact ⟨text, location, rfl⟩ | cases h
  | newline | assignment | call | program | bare | foreign => cases h

theorem exists_of_isNewline {tree : Tree} (h : isNewline tree = true) :
    ∃ location, tree = .newline location := by
  cases tree with
  | newline location => exact ⟨location, rfl⟩
  | leaf | assignment | call | program | bare | foreign => cases h

/-- One node may follow another: a line ends where it has to, and one of them is a line end or a
comment. -/
def Follows (a b : Tree) : Prop :=
  (a.endsLine = true → isNewline b = true) ∧ (a.isLayout = true ∨ b.isLayout = true)

/-- A node that can stand in a context and be read again there. `blocks` says whether there may be
block comments. -/
inductive Stands (blocks : Prop) : Context → Tree → Prop
  | number {context : Context} {text : String} {location : Location}
      (digits : Numeral text.toList) : Stands blocks context (.leaf .number text (some location))
  | string {context : Context} {text : String} {location : Location}
      (plain : Tree.PlainText text.toList) :
      Stands blocks context (.leaf .string text (some location))
  | boolean {context : Context} {text : String} {location : Location}
      (word : text = "true" ∨ text = "false") :
      Stands blocks context (.leaf .boolean text (some location))
  | comment {context : Context} {text : String} {location : Location}
      (allowed : context ≠ .arguments) (oneLine : '\n' ∉ text.toList) :
      Stands blocks context (.leaf .comment text (some location))
  | commentBlock {context : Context} {text : String} {location : Location}
      (allowed : context ≠ .arguments) (permitted : blocks) :
      Stands blocks context (.leaf .commentBlock text (some location))
  | newline {location : Location} : Stands blocks .statement (.newline (some location))
  | call {context : Context} {name : String} {params : List Tree} {location : Location}
      (identifier : Identifier name.toList) (free : name ∉ reservedWords)
      (inside : ∀ tree ∈ params, Stands blocks .arguments tree) :
      Stands blocks context (.call name params (some location))
  | assignment {name : String} {body : List Tree} {location : Location}
      (identifier : Identifier name.toList) (free : name ∉ reservedWords) (nonempty : body ≠ [])
      (inside : ∀ tree ∈ body, Stands blocks .assignment tree) (order : body.IsChain Follows) :
      Stands blocks .statement (.assignment name body (some location))

section Nodes

variable {blocks : Prop} {context : Context} {tokens : List Token} {nodes : List Tree}

/-- Tokens of a new line give nodes of a new line. -/
theorem Items.isNewline_head (h : Items context tokens nodes) (outside : context ≠ .arguments)
    (ends : EndsLine tokens) : ∀ node ∈ nodes.head?, isNewline node = true := by
  cases h with
  | empty => simp
  | @single _ t node tokens nodes item _ =>
    have lineEnd : t.kind = .newline := by simpa using ends t tokens rfl
    cases item <;> simp_all [isNewline]
  | @call _ name _ _ _ _ _ _ naming =>
    have lineEnd : name.kind = .newline := by simpa using ends name _ rfl
    rw [naming.1] at lineEnd
    cases lineEnd
  | @declaration word _ _ _ _ _ _ keyword =>
    have lineEnd : word.kind = .newline := by simpa using ends word _ rfl
    rw [keyword.1] at lineEnd
    cases lineEnd

theorem CommentsEnd.endsLine {t : Token} (h : CommentsEnd (t :: tokens))
    (isComment : t.kind = .comment) : EndsLine tokens := by
  rintro next others rfl
  have lineEnd := (List.isChain_cons_cons.mp h).1 isComment
  simp [lineEnd]

/-- Behind a comment and behind an assignment comes a line end, if anything does. -/
theorem Items.endsLine_chain (h : Items context tokens nodes) (outside : context ≠ .arguments)
    (comments : CommentsEnd tokens) :
    nodes.IsChain fun a b => a.endsLine = true → isNewline b = true := by
  induction h with
  | empty => exact .nil
  | @single context t node tokens nodes item rest ih =>
    have chain := ih outside comments.tail
    -- Of the items of one token only a comment ends its line.
    cases item with
    | comma | separator => exact chain
    | comment isComment _ =>
      exact chain.cons fun next head _ =>
        rest.isNewline_head outside (comments.endsLine isComment) next head
    | number | string | boolean | commentBlock | newline =>
      exact chain.cons (by simp [Tree.endsLine])
  | @call context name paren close inner tokens params nodes _ _ _ _ _ _ ih =>
    have after : CommentsEnd tokens := comments.tail.tail.right_of_append.tail
    exact (ih outside after).cons (by simp [Tree.endsLine])
  | @declaration word name equals line tokens body nodes _ _ _ _ ends _ rest _ ih =>
    have after : CommentsEnd tokens := comments.tail.tail.tail.right_of_append
    exact (ih outside after).cons fun next head _ =>
      rest.isNewline_head outside ends next head

theorem Items.follows (h : Items context tokens nodes) (outside : context ≠ .arguments)
    (comments : CommentsEnd tokens)
    (spaced : nodes.IsChain fun a b => a.isLayout = true ∨ b.isLayout = true) :
    nodes.IsChain Follows := by
  have ends := h.endsLine_chain outside comments
  rw [List.isChain_iff_forall_rel_of_append_cons_cons] at ends spaced ⊢
  exact fun a b front back split => ⟨ends split, spaced split⟩

theorem Single.stands {t : Token} {node : Option Tree} (h : Single context t node) (fits : t.Fits)
    (readable : ∀ tree ∈ node.toList, tree.Readable)
    (permitted : ∀ tree ∈ node.toList, isBlock tree = true → blocks) :
    ∀ tree ∈ node.toList, Stands blocks context tree := by
  cases h with
  | comma | separator => simp
  | number h => simpa using Stands.number (fits.number h)
  | string h =>
    have plain := (readable _ (by simp)).strings t.text (some t.location) (Tree.self_mem_nodes _)
    simpa using Stands.string plain
  | boolean _ word => simpa using Stands.boolean word
  | comment h allowed => simpa using Stands.comment allowed (fits.comment h)
  | commentBlock _ allowed =>
    have permit := permitted (.leaf .commentBlock t.text (some t.location)) (by simp) rfl
    simpa using Stands.commentBlock allowed permit
  | newline => simpa using Stands.newline

/-- The nodes of a program that was read and is readable. -/
theorem Items.stands (h : Items context tokens nodes) (fits : ∀ t ∈ tokens, t.Fits)
    (comments : CommentsEnd tokens) (readable : ∀ node ∈ nodes, node.Readable)
    (permitted : ∀ node ∈ nodes, ∀ below ∈ node.nodes, isBlock below = true → blocks) :
    ∀ node ∈ nodes, Stands blocks context node := by
  induction h with
  | empty => simp
  | @single context t node tokens nodes item _ ih =>
    obtain ⟨fit, fits⟩ := List.forall_mem_cons.mp fits
    simp only [List.mem_append, or_imp, forall_and] at readable permitted ⊢
    exact ⟨item.stands fit readable.1 fun tree mem => permitted.1 tree mem tree tree.self_mem_nodes,
      ih fits comments.tail readable.2 permitted.2⟩
  | @call context name paren close inner tokens params nodes naming _ _ _ _ ihInside ih =>
    simp only [List.forall_mem_cons, List.forall_mem_append] at fits readable permitted ⊢
    obtain ⟨fitName, -, fitInner, -, fits⟩ := fits
    have between : CommentsEnd inner := comments.tail.tail.left_of_append
    have after : CommentsEnd tokens := comments.tail.tail.right_of_append.tail
    have below : ∀ tree ∈ params, ∀ node ∈ tree.nodes,
        node ∈ (Tree.call name.text params (some name.location)).nodes :=
      fun tree mem node inside => List.mem_cons_of_mem _ (Tree.mem_allNodes mem inside)
    have inside := ihInside fitInner between
      (fun tree mem => readable.1.below (below tree mem))
      (fun tree mem node inside => permitted.1 node (below tree mem node inside))
    exact ⟨.call (fitName.name naming.1) naming.2 inside,
      ih fits after readable.2 permitted.2⟩
  | @declaration word name equals line tokens body nodes _ naming _ _ _ derived _ ihInside ih =>
    simp only [List.forall_mem_cons, List.forall_mem_append] at fits readable permitted ⊢
    obtain ⟨-, fitName, -, fitLine, fits⟩ := fits
    have between : CommentsEnd line := comments.tail.tail.tail.left_of_append
    have after : CommentsEnd tokens := comments.tail.tail.tail.right_of_append
    have below : ∀ tree ∈ body, ∀ node ∈ tree.nodes,
        node ∈ (Tree.assignment name.text body (some word.location)).nodes :=
      fun tree mem node inside => List.mem_cons_of_mem _ (Tree.mem_allNodes mem inside)
    have inside := ihInside fitLine between
      (fun tree mem => readable.1.below (below tree mem))
      (fun tree mem node inside => permitted.1 node (below tree mem node inside))
    have nonempty : body ≠ [] := by
      rintro rfl
      exact readable.1.bodies _ _ (Tree.self_mem_nodes _)
    have order := derived.follows (by simp) between
      (readable.1.spaced _ (Tree.self_mem_nodes _))
    exact ⟨.assignment (fitName.name naming.1) naming.2 nonempty inside order,
      ih fits after readable.2 permitted.2⟩

end Nodes

end XoLang
