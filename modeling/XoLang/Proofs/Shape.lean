import XoLang.Proofs.Standing

/-!
# The shape of programs

Which trees reading can give. A node is allowed in a context or not, whatever its texts are, and
behind an assignment comes a line end or nothing. Every program of this shape is read from some
tokens: from the tokens of its nodes, written down by `Tree.words`.
-/

namespace XoLang

open JavaScript

/-- A node that is allowed in a context. A program is allowed in none, an assignment only among
statements, a comment everywhere but among arguments. -/
inductive Shaped : Context → Tree → Prop
  | number {context : Context} {text : String} {location : Option Location} :
      Shaped context (.leaf .number text location)
  | string {context : Context} {text : String} {location : Option Location} :
      Shaped context (.leaf .string text location)
  | boolean {context : Context} {text : String} {location : Option Location}
      (isWord : text = "true" ∨ text = "false") : Shaped context (.leaf .boolean text location)
  | comment {context : Context} {text : String} {location : Option Location}
      (allowed : context ≠ .arguments) : Shaped context (.leaf .comment text location)
  | commentBlock {context : Context} {text : String} {location : Option Location}
      (allowed : context ≠ .arguments) : Shaped context (.leaf .commentBlock text location)
  | newline {location : Option Location} : Shaped .statement (.newline location)
  | call {context : Context} {name : String} {params : List Tree} {location : Option Location}
      (free : name ∉ reservedWords) (inside : ∀ tree ∈ params, Shaped .arguments tree) :
      Shaped context (.call name params location)
  | assignment {name : String} {body : List Tree} {location : Option Location}
      (free : name ∉ reservedWords) (inside : ∀ tree ∈ body, Shaped .assignment tree) :
      Shaped .statement (.assignment name body location)

namespace Tree

def isAssignment : Tree → Bool
  | .assignment _ _ _ => true
  | _ => false

/-- Behind every assignment comes a line end, if anything does. -/
def AssignmentsEnd (trees : List Tree) : Prop :=
  trees.IsChain fun a b => a.isAssignment = true → isNewline b = true

/-- A program of the shape that reading gives. -/
inductive IsProgram : Tree → Prop
  | program {body : List Tree} {location : Option Location}
      (nodes : ∀ node ∈ body, Shaped .statement node) (lines : AssignmentsEnd body) :
      IsProgram (.program body location)

theorem endsLine_of_isAssignment {tree : Tree} (h : tree.isAssignment = true) :
    tree.endsLine = true := by
  cases tree with
  | assignment => rfl
  | leaf | newline | call | program | bare | foreign => cases h

theorem assignmentsEnd_of_none {trees : List Tree}
    (h : ∀ tree ∈ trees, tree.isAssignment = false) : AssignmentsEnd trees := by
  induction trees with
  | nil => exact .nil
  | cons tree trees ih =>
    obtain ⟨first, rest⟩ := List.forall_mem_cons.mp h
    exact (ih rest).cons fun next _ isAssignment => by simp [first] at isAssignment

end Tree

/-! What reading gives has the shape. -/

section Reading

variable {context : Context} {tokens : List Token} {nodes : List Tree} {tree : Tree}

theorem Single.shaped {t : Token} {node : Option Tree} (h : Single context t node) :
    ∀ tree ∈ node.toList, Shaped context tree := by
  cases h with
  | comma | separator => simp
  | number => simpa using Shaped.number
  | string => simpa using Shaped.string
  | boolean _ isWord => simpa using Shaped.boolean isWord
  | comment _ allowed => simpa using Shaped.comment allowed
  | commentBlock _ allowed => simpa using Shaped.commentBlock allowed
  | newline => simpa using Shaped.newline

theorem Items.shaped (h : Items context tokens nodes) : ∀ node ∈ nodes, Shaped context node := by
  induction h with
  | empty => simp
  | single item _ ih => exact List.forall_mem_append.mpr ⟨item.shaped, ih⟩
  | call naming _ _ _ _ ihInside ih =>
    exact List.forall_mem_cons.mpr ⟨.call naming.2 ihInside, ih⟩
  | declaration _ naming _ _ _ _ _ ihInside ih =>
    exact List.forall_mem_cons.mpr ⟨.assignment naming.2 ihInside, ih⟩

theorem Items.assignmentsEnd (h : Items context tokens nodes) : Tree.AssignmentsEnd nodes := by
  induction h with
  | empty => exact .nil
  | @single context t node tokens nodes item rest ih =>
    cases item with
    | comma | separator => exact ih
    | number | string | boolean | comment | commentBlock | newline =>
      exact ih.cons (by simp [Tree.isAssignment])
  | call _ _ _ _ _ _ ih => exact ih.cons (by simp [Tree.isAssignment])
  | declaration _ _ _ _ ends _ rest _ ih =>
    exact ih.cons fun next head _ => rest.isNewline_head (by simp) ends next head

theorem Shaped.not_assignment (h : Shaped context tree) (inside : context ≠ .statement) :
    tree.isAssignment = false := by
  cases h with
  | assignment => exact absurd rfl inside
  | number | string | boolean | comment | commentBlock | newline | call => rfl

end Reading

/-! Every program of the shape can be read. -/

/-- The place of what comes from no source. -/
def nowhere : Location := .start ""

/-- A token that comes from no source. -/
def word (kind : TokenKind) (text : String) : Token := ⟨kind, text, nowhere⟩

/-- The kind of the token of a leaf. -/
def LeafKind.tokenKind : LeafKind → TokenKind
  | .number => .number
  | .string => .string
  | .boolean => .name
  | .comment => .comment
  | .commentBlock => .commentBlock

/-- Groups of tokens with a comma between each two. -/
def separated : List (List Token) → List Token
  | [] => []
  | [tokens] => tokens
  | tokens :: rest => tokens ++ word .comma "," :: separated rest

namespace Tree

mutual

/-- The tokens of a tree; nodes without a rendering have none. -/
def words : Tree → List Token
  | .leaf kind text _ => [word kind.tokenKind text]
  | .newline _ => [word .newline "\n"]
  | .assignment name body _ =>
    word .name "let" :: word .name name :: word .equals "=" :: (wordsEach body).flatten
  | .call name params _ =>
    word .name name :: word .parenOpen "(" ::
      (separated (wordsEach params) ++ [word .parenClose ")"])
  | .program body _ => (wordsEach body).flatten
  | .bare _ => []
  | .foreign _ _ => []
termination_by structural tree => tree

/-- The tokens of each of some trees. -/
def wordsEach : List Tree → List (List Token)
  | [] => []
  | tree :: trees => words tree :: wordsEach trees
termination_by structural trees => trees

end

theorem wordsEach_eq_map (trees : List Tree) : wordsEach trees = trees.map words := by
  induction trees with
  | nil => rfl
  | cons tree trees ih => rw [wordsEach, ih, List.map_cons]

mutual

/-- A tree with all its nodes at one place. -/
def placed (location : Location) : Tree → Tree
  | .leaf kind text _ => .leaf kind text (some location)
  | .newline _ => .newline (some location)
  | .assignment name body _ => .assignment name (placedAll location body) (some location)
  | .call name params _ => .call name (placedAll location params) (some location)
  | .program body _ => .program (placedAll location body) (some location)
  | .bare _ => .bare (some location)
  | .foreign kind _ => .foreign kind (some location)
termination_by structural tree => tree

/-- Trees with all their nodes at one place. -/
def placedAll (location : Location) : List Tree → List Tree
  | [] => []
  | tree :: trees => placed location tree :: placedAll location trees
termination_by structural trees => trees

end

theorem placedAll_eq_map (location : Location) (trees : List Tree) :
    placedAll location trees = trees.map (placed location) := by
  induction trees with
  | nil => rfl
  | cons tree trees ih => rw [placedAll, ih, List.map_cons]

theorem allAlike_placed {location : Location} {trees : List Tree}
    (each : ∀ tree ∈ trees, (tree.placed location).alike tree = true) :
    allAlike (trees.map (placed location)) trees = true := by
  induction trees with
  | nil => rfl
  | cons tree trees ih =>
    obtain ⟨first, rest⟩ := List.forall_mem_cons.mp each
    rw [List.map_cons, allAlike, first, ih rest]
    rfl

end Tree

/-- In front of derived tokens the tokens of a tree give the tree. -/
def Derives (context : Context) (tree : Tree) : Prop :=
  ∀ tokens nodes, (tree.isAssignment = true → EndsLine tokens) → Items context tokens nodes →
    Items context (tree.words ++ tokens) (tree.placed nowhere :: nodes)

section Words

variable {context : Context} {trees : List Tree} {tree : Tree}

theorem derives_all (derives : ∀ tree ∈ trees, Derives context tree)
    (lines : Tree.AssignmentsEnd trees) :
    Items context (trees.map Tree.words).flatten (trees.map (Tree.placed nowhere)) := by
  induction trees with
  | nil => exact .empty
  | cons tree trees ih =>
    obtain ⟨first, rest⟩ := List.forall_mem_cons.mp derives
    obtain ⟨next, lines⟩ := List.isChain_cons.mp lines
    refine first _ _ ?_ (ih rest lines)
    intro assigned
    cases trees with
    | nil => exact stopsAt_nil _
    | cons following trees =>
      obtain ⟨location, rfl⟩ := exists_of_isNewline (next following rfl assigned)
      exact stopsAt_cons (by simp [word]) _

theorem derives_separated (derives : ∀ tree ∈ trees, Derives .arguments tree)
    (inside : ∀ tree ∈ trees, tree.isAssignment = false) :
    Items .arguments (separated (trees.map Tree.words)) (trees.map (Tree.placed nowhere)) := by
  induction trees with
  | nil => exact .empty
  | cons tree trees ih =>
    obtain ⟨first, derives⟩ := List.forall_mem_cons.mp derives
    obtain ⟨inLine, inside⟩ := List.forall_mem_cons.mp inside
    have rest := ih derives inside
    cases trees with
    | nil => simpa [separated] using first [] [] (by simp [inLine]) .empty
    | cons next trees => exact first _ _ (by simp [inLine]) (.single (.comma rfl) rest)

theorem mem_separated {t : Token} {groups : List (List Token)} (h : t ∈ separated groups) :
    t.kind = .comma ∨ ∃ tokens ∈ groups, t ∈ tokens := by
  fun_induction separated groups with
  | case1 => cases h
  | case2 tokens => exact Or.inr ⟨tokens, by simp, h⟩
  | case3 tokens rest _ ih =>
    simp only [List.mem_append, List.mem_cons] at h
    rcases h with mem | rfl | mem
    · exact Or.inr ⟨tokens, by simp, mem⟩
    · exact Or.inl rfl
    · rcases ih mem with comma | ⟨other, inRest, mem⟩
      · exact Or.inl comma
      · exact Or.inr ⟨other, List.mem_cons_of_mem tokens inRest, mem⟩

/-- Within a line there is no line end among the tokens. -/
theorem Shaped.words_oneLine (h : Shaped context tree) (inLine : context ≠ .statement) :
    ∀ t ∈ tree.words, t.kind ≠ .newline := by
  induction h with
  | number | string | boolean | comment | commentBlock =>
    simp [Tree.words, word, LeafKind.tokenKind]
  | newline => exact absurd rfl inLine
  | call _ inside ih =>
    intro t mem
    simp only [Tree.words, Tree.wordsEach_eq_map, List.mem_cons, List.mem_append,
      List.not_mem_nil, or_false] at mem
    rcases mem with rfl | rfl | mem | rfl
    · simp [word]
    · simp [word]
    · rcases mem_separated mem with comma | ⟨tokens, inParams, mem⟩
      · simp [comma]
      · obtain ⟨tree, isParam, rfl⟩ := List.mem_map.mp inParams
        exact ih tree isParam (by simp) t mem
    · simp [word]
  | assignment => exact absurd rfl inLine

theorem Shaped.derives (h : Shaped context tree) : Derives context tree := by
  induction h with
  | number => exact fun tokens nodes _ rest => .single (.number rfl) rest
  | string => exact fun tokens nodes _ rest => .single (.string rfl) rest
  | boolean isWord => exact fun tokens nodes _ rest => .single (.boolean rfl isWord) rest
  | comment allowed => exact fun tokens nodes _ rest => .single (.comment rfl allowed) rest
  | commentBlock allowed =>
    exact fun tokens nodes _ rest => .single (.commentBlock rfl allowed) rest
  | newline => exact fun tokens nodes _ rest => .single (.newline rfl) rest
  | @call context name params location free inside ih =>
    intro tokens nodes _ rest
    have args := derives_separated ih fun tree mem => (inside tree mem).not_assignment (by simp)
    have naming : Naming (word .name name) := ⟨rfl, free⟩
    have opens : (word .parenOpen "(").kind = .parenOpen := rfl
    have closes : (word .parenClose ")").kind = .parenClose := rfl
    have whole : (Tree.call name params location).words ++ tokens =
        word .name name :: word .parenOpen "(" ::
          (separated (params.map Tree.words) ++ word .parenClose ")" :: tokens) := by
      simp [Tree.words, Tree.wordsEach_eq_map]
    rw [whole, Tree.placed, Tree.placedAll_eq_map]
    exact .call naming opens args closes rest
  | @assignment name body location free inside ih =>
    intro tokens nodes ends rest
    have lines := Tree.assignmentsEnd_of_none fun tree mem =>
      (inside tree mem).not_assignment (by simp)
    have line := derives_all ih lines
    have oneLine : ∀ t ∈ (body.map Tree.words).flatten, t.kind ≠ .newline := by
      intro t mem
      obtain ⟨group, inGroups, mem⟩ := List.mem_flatten.mp mem
      obtain ⟨tree, inBody, rfl⟩ := List.mem_map.mp inGroups
      exact (inside tree inBody).words_oneLine (by simp) t mem
    have keyword : (word .name "let").kind = .name ∧ (word .name "let").text = "let" := ⟨rfl, rfl⟩
    have naming : Naming (word .name name) := ⟨rfl, free⟩
    have binds : (word .equals "=").kind = .equals := rfl
    rw [Tree.words, Tree.wordsEach_eq_map, Tree.placed, Tree.placedAll_eq_map]
    exact .declaration keyword naming binds oneLine (ends rfl) line rest

theorem Shaped.alike_placed (h : Shaped context tree) (location : Location) :
    (tree.placed location).alike tree = true := by
  induction h with
  | number | string | boolean | comment | commentBlock | newline => simp [Tree.placed, Tree.alike]
  | call _ _ ih =>
    simp only [Tree.placed, Tree.placedAll_eq_map, Tree.alike, decide_true, Bool.true_and]
    exact Tree.allAlike_placed ih
  | assignment _ _ ih =>
    simp only [Tree.placed, Tree.placedAll_eq_map, Tree.alike, decide_true, Bool.true_and]
    exact Tree.allAlike_placed ih

end Words

section Programs

variable {tree : Tree}

theorem Tree.isProgram_of_parseTokens {file : String} {tokens : List Token}
    (h : parseTokens file tokens = .ok tree) : tree.IsProgram := by
  obtain ⟨body, rfl, derived⟩ := parseTokens_eq_ok_iff.mp h
  exact .program derived.shaped derived.assignmentsEnd

/-- A program of the shape is read from its tokens. -/
theorem Tree.IsProgram.parseTokens_words (h : tree.IsProgram) (file : String) :
    ∃ again, parseTokens file tree.words = .ok again ∧ again.alike tree = true := by
  cases h with
  | @program body location nodes lines =>
    have derived := derives_all (fun node mem => (nodes node mem).derives) lines
    have same := Tree.allAlike_placed fun node mem => (nodes node mem).alike_placed nowhere
    refine ⟨.program (body.map (Tree.placed nowhere)) (some (.start file)), ?_, ?_⟩
    · rw [Tree.words, Tree.wordsEach_eq_map]
      exact parseTokens_eq_ok_iff.mpr ⟨_, rfl, derived⟩
    · rw [Tree.alike]
      exact same

end Programs

end XoLang
