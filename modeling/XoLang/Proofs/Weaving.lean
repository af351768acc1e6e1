import XoLang.Proofs.Standing

/-!
# Renderings with other leaves

The text of a tree is woven from the texts of its leaves and from characters of its own: names,
marks, blanks and line ends. With something else in place of these two it is another reading of the
same text: the parts that a scan of it finds, or the text without its comments. All of them change
with what is woven.
-/

namespace XoLang.JavaScript

section Weaving

variable {α β : Type}

mutual

/-- What stands in place of the text of a tree, when `leaf` stands in place of the leaves and `mark`
in place of every other character. -/
def weave (leaf : LeafKind → String → List α) (mark : Char → List α) : Tree → List α
  | .leaf kind text _ => leaf kind text
  | .newline _ => mark '\n'
  | .assignment name body _ =>
    ("let " ++ name).toList.flatMap mark ++
      (if body.isEmpty then [] else " = ".toList.flatMap mark ++ weaveAll leaf mark body)
  | .call name params _ =>
    (name ++ "(").toList.flatMap mark ++ weaveList leaf mark params ++ mark ')'
  | .program body _ => weaveAll leaf mark body
  | .bare _ => []
  | .foreign _ _ => []
termination_by structural tree => tree

/-- The same for trees that follow each other. -/
def weaveAll (leaf : LeafKind → String → List α) (mark : Char → List α) : List Tree → List α
  | [] => []
  | tree :: trees =>
    weave leaf mark tree ++ (lineBreak tree trees).toList.flatMap mark ++ weaveAll leaf mark trees
termination_by structural trees => trees

/-- The same for trees with commas between them. -/
def weaveList (leaf : LeafKind → String → List α) (mark : Char → List α) : List Tree → List α
  | [] => []
  | tree :: trees =>
    weave leaf mark tree ++ (if trees.isEmpty then [] else ", ".toList.flatMap mark) ++
      weaveList leaf mark trees
termination_by structural trees => trees

end

/-! The text of a tree is woven. -/

/-- The characters of leaves. -/
def leafChars (kind : LeafKind) (text : String) : List Char := (leafText kind text).toList

theorem weaveAll_chars {trees : List Tree}
    (h : ∀ tree ∈ trees, weave leafChars (fun c => [c]) tree = (render tree).toList) :
    weaveAll leafChars (fun c => [c]) trees = (renderAll trees).toList := by
  induction trees with
  | nil => rfl
  | cons tree trees ih =>
    obtain ⟨first, rest⟩ := List.forall_mem_cons.mp h
    rw [weaveAll, first, ih rest, List.flatMap_singleton', renderAll, String.toList_append,
      String.toList_append]

theorem weaveList_chars {trees : List Tree}
    (h : ∀ tree ∈ trees, weave leafChars (fun c => [c]) tree = (render tree).toList) :
    weaveList leafChars (fun c => [c]) trees = (Text.join ", " (renderEach trees)).toList := by
  induction trees with
  | nil => rfl
  | cons tree trees ih =>
    obtain ⟨first, rest⟩ := List.forall_mem_cons.mp h
    rw [weaveList, first, ih rest]
    cases trees with
    | nil => simp [renderEach, Text.join]
    | cons next trees => simp [renderEach, Text.join]

theorem weave_chars (tree : Tree) : weave leafChars (fun c => [c]) tree = (render tree).toList := by
  induction tree using Tree.induction with
  | leaf | bare | foreign => rfl
  | newline => simp [weave, render]
  | assignment name body location ih =>
    cases body with
    | nil => simp [weave, render]
    | cons tree trees => simp [weave, render, weaveAll_chars ih]
  | call name params location ih => simp [weave, render, weaveList_chars ih]
  | program body location ih => rw [weave, weaveAll_chars ih, render]

/-! Changing what is woven. -/

section Change

variable {leaf : LeafKind → String → List α} {mark : Char → List α} {f : α → List β}

theorem flatMap_weaveAll {trees : List Tree}
    (h : ∀ tree ∈ trees, (weave leaf mark tree).flatMap f =
      weave (fun kind text => (leaf kind text).flatMap f) (fun c => (mark c).flatMap f) tree) :
    (weaveAll leaf mark trees).flatMap f =
      weaveAll (fun kind text => (leaf kind text).flatMap f) (fun c => (mark c).flatMap f)
        trees := by
  induction trees with
  | nil => rfl
  | cons tree trees ih =>
    obtain ⟨first, rest⟩ := List.forall_mem_cons.mp h
    simp only [weaveAll, List.flatMap_append, List.flatMap_assoc, first, ih rest]

theorem flatMap_weaveList {trees : List Tree}
    (h : ∀ tree ∈ trees, (weave leaf mark tree).flatMap f =
      weave (fun kind text => (leaf kind text).flatMap f) (fun c => (mark c).flatMap f) tree) :
    (weaveList leaf mark trees).flatMap f =
      weaveList (fun kind text => (leaf kind text).flatMap f) (fun c => (mark c).flatMap f)
        trees := by
  induction trees with
  | nil => rfl
  | cons tree trees ih =>
    obtain ⟨first, rest⟩ := List.forall_mem_cons.mp h
    simp only [weaveList, List.flatMap_append, first, ih rest]
    split_ifs <;> simp

/-- Changing everything that was woven is weaving the changed things. -/
theorem flatMap_weave (leaf : LeafKind → String → List α) (mark : Char → List α) (f : α → List β)
    (tree : Tree) :
    (weave leaf mark tree).flatMap f =
      weave (fun kind text => (leaf kind text).flatMap f) (fun c => (mark c).flatMap f) tree := by
  induction tree using Tree.induction with
  | leaf | newline | bare | foreign => rfl
  | assignment name body location ih =>
    simp only [weave, List.flatMap_append, List.flatMap_assoc]
    split_ifs
    · rfl
    · simp only [List.flatMap_append, List.flatMap_assoc, flatMap_weaveAll ih]
  | call name params location ih =>
    simp only [weave, List.flatMap_append, List.flatMap_assoc, flatMap_weaveList ih]
  | program body location ih => simp only [weave, flatMap_weaveAll ih]

end Change

end Weaving

end XoLang.JavaScript
