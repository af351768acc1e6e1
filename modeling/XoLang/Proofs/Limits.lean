import XoLang.Proofs.Dumps
import XoLang.Proofs.Rendering

/-!
# Dumps with a limit

A limit is the end of a slice: it takes the items in front of it, and an end below zero counts from
behind. A dump of tokens has a line for each token of the slice. A dump of a tree has a line for
each node, and below it the name of its list and the lines of the slice of that list, indented.
Where items of a list are left out, a last line tells how many.
-/

namespace XoLang

namespace Dump

/-! Slices. -/

/-- Whether a slice with that end takes the item at an index of a list. -/
def takes (limit : Option Int) (size index : Nat) : Bool :=
  match limit with
  | none => true
  | some stop => decide ((index : Int) < if stop < 0 then size + stop else stop)

/-- The items that a slice takes. -/
def slice (limit : Option Int) (items : List α) : List α :=
  (items.zipIdx.filter fun item => takes limit items.length item.2).map Prod.fst

/-- The items that a slice leaves out. -/
def omitted (limit : Option Int) (items : List α) : List α :=
  (items.zipIdx.filter fun item => !takes limit items.length item.2).map Prod.fst

/-- What is told of items that are left out, if there are any. -/
def remark (missing : Nat) : List String :=
  if missing = 0 then [] else ["… " ++ toString missing ++ " more"]

section Slices

variable {α β : Type} {limit : Option Int}

theorem takes_eq {size index : Nat} (inside : index < size) :
    takes limit size index = decide (index < shownCount limit size) := by
  cases limit with
  | none => simp [takes, shownCount, inside]
  | some stop =>
    apply decide_eq_decide.mpr
    simp only [shownCount]
    by_cases negative : stop < 0
    · rw [if_pos negative, if_neg (by omega)]
      omega
    · rw [if_neg negative, if_pos (by omega)]
      omega

theorem shownCount_le (size : Nat) : shownCount limit size ≤ size := by
  cases limit with
  | none => exact Nat.le_refl size
  | some stop =>
    simp only [shownCount]
    split_ifs <;> omega

theorem filter_zipIdx_true (p : Nat → Bool) {items : List α} {start : Nat}
    (holds : ∀ index, start ≤ index → index < start + items.length → p index = true) :
    ((items.zipIdx start).filter fun item => p item.2).map Prod.fst = items := by
  have all : ∀ item ∈ items.zipIdx start, p item.2 = true := fun item mem =>
    holds item.2 (List.le_snd_of_mem_zipIdx mem) (List.snd_lt_add_of_mem_zipIdx mem)
  rw [List.filter_eq_self.mpr all, List.zipIdx_map_fst]

theorem filter_zipIdx_false (p : Nat → Bool) {items : List α} {start : Nat}
    (fails : ∀ index, start ≤ index → index < start + items.length → p index = false) :
    ((items.zipIdx start).filter fun item => p item.2).map Prod.fst = [] := by
  have none : ∀ item ∈ items.zipIdx start, ¬ p item.2 = true := fun item mem =>
    Bool.eq_false_iff.mp
      (fails item.2 (List.le_snd_of_mem_zipIdx mem) (List.snd_lt_add_of_mem_zipIdx mem))
  rw [List.filter_eq_nil_iff.mpr none, List.map_nil]

theorem slice_append {front back : List α}
    (count : shownCount limit (front ++ back).length = front.length) :
    slice limit (front ++ back) = front ∧ omitted limit (front ++ back) = back := by
  have taken : ∀ index < (front ++ back).length,
      takes limit (front ++ back).length index = decide (index < front.length) := by
    intro index inside
    rw [takes_eq inside, count]
  simp only [slice, omitted, List.zipIdx_append, List.filter_append, List.map_append]
  generalize takes limit (front ++ back).length = p at taken
  rw [List.length_append] at taken
  constructor
  · rw [filter_zipIdx_true p, filter_zipIdx_false p, List.append_nil]
    · intro index after before
      rw [taken index (by omega), decide_eq_false_iff_not]
      omega
    · intro index after before
      rw [taken index (by omega), decide_eq_true_eq]
      omega
  · rw [filter_zipIdx_false fun index => !p index, filter_zipIdx_true fun index => !p index,
      List.nil_append]
    · intro index after before
      rw [taken index (by omega), Bool.not_eq_true', decide_eq_false_iff_not]
      omega
    · intro index after before
      rw [taken index (by omega), Bool.not_eq_false', decide_eq_true_eq]
      omega

/-- A limit leaves the slice that ends there, and the rest is missing. -/
theorem slice_eq (items : List α) :
    slice limit items = shown limit items ∧
      (omitted limit items).length = items.length - shownCount limit items.length := by
  have split := List.take_append_drop (shownCount limit items.length) items
  have front : (shown limit items).length = shownCount limit items.length := by
    rw [shown, List.length_take]
    exact Nat.min_eq_left (shownCount_le items.length)
  rw [← shown] at split
  have count : shownCount limit
      (shown limit items ++ items.drop (shownCount limit items.length)).length =
        (shown limit items).length := by rw [split, front]
  obtain ⟨taken, dropped⟩ := slice_append count
  rw [split] at taken dropped
  rw [taken, dropped, List.length_drop]
  exact ⟨rfl, rfl⟩

theorem shown_map (f : α → β) (items : List α) :
    shown limit (items.map f) = (shown limit items).map f := by
  rw [shown, shown, List.length_map, List.map_take]

theorem moreLines_eq (colour : Bool) (indent : String) (items : List α) :
    moreLines colour limit indent items.length =
      (remark (omitted limit items).length).map fun text => indent ++ paint colour .dim text := by
  rw [moreLines, remark, slice_eq items |>.2]
  split_ifs <;> rfl

end Slices

/-! Tokens. -/

/-- The line of a token: its place at the right end of eight columns, its kind at the left end of
fourteen, and its text in quotes. -/
inductive Row (t : Token) : String → Prop
  | mk {front back : Nat}
      (left : front + t.location.position.length = max 8 t.location.position.length)
      (right : back + t.kind.label.length = max 14 t.kind.label.length) :
      Row t (Text.blanks front ++ toString t.location.line ++ ":" ++ toString t.location.column ++
        "  " ++ t.kind.label ++ Text.blanks back ++ " " ++ Text.quoted t.text)

theorem row_tokenLine (t : Token) : Row t (tokenLine false t) := by
  have row : Row t _ := .mk (Nat.sub_add_eq_max 8 _) (Nat.sub_add_eq_max 14 _)
  simpa only [tokenLine, paint, Bool.false_eq_true, if_false, Text.padLeft, Text.padRight,
    Location.position, String.append_assoc] using row

/-- A dump of tokens has a line for each token of the slice, and then the remark. -/
theorem rows_of_tokens (limit : Option Int) (ts : List Token) :
    ∃ rows, List.Forall₂ Row (slice limit ts) rows ∧
      tokens false limit ts = Text.join "\n" (rows ++ remark (omitted limit ts).length) := by
  have rows : List.Forall₂ Row (slice limit ts) ((slice limit ts).map (tokenLine false)) := by
    rw [List.forall₂_map_right_iff, List.forall₂_same]
    exact fun t _ => row_tokenLine t
  have remarks : moreLines false limit "" ts.length = remark (omitted limit ts).length := by
    rw [moreLines_eq]
    simp [paint]
  refine ⟨_, rows, ?_⟩
  rw [tokens, remarks, (slice_eq ts).1]

/-! Trees. -/

/-- The lines of a list of nodes below its node: the name, the lines of the items that are shown,
and the remark on the others. -/
def listed (limit : Option Int) (name : String) (items : List Tree) (each : List (List String)) :
    List String :=
  ("  " ++ name ++ ":") :: (each.flatten ++ remark (omitted limit items).length).map ("    " ++ ·)

/-- The lines of a tree: a line for the node, and the slice of its list. -/
inductive Drawn (limit : Option Int) : Tree → List String → Prop
  | leaf (kind : LeafKind) (text : String) (location : Option Location) :
      Drawn limit (.leaf kind text location) [kind.label ++ " text=" ++ Text.quoted text]
  | newline (location : Option Location) : Drawn limit (.newline location) ["NewLine"]
  | assignment {name : String} {body : List Tree} {location : Option Location}
      {each : List (List String)} (shown : List.Forall₂ (Drawn limit) (slice limit body) each) :
      Drawn limit (.assignment name body location)
        (("VariableAssignment name=" ++ Text.quoted name) :: listed limit "body" body each)
  | call {name : String} {params : List Tree} {location : Option Location}
      {each : List (List String)} (shown : List.Forall₂ (Drawn limit) (slice limit params) each) :
      Drawn limit (.call name params location)
        (("FunctionCall name=" ++ Text.quoted name) :: listed limit "params" params each)
  | program {body : List Tree} {location : Option Location} {each : List (List String)}
      (shown : List.Forall₂ (Drawn limit) (slice limit body) each) :
      Drawn limit (.program body location) ("Program" :: listed limit "body" body each)

/-- Lines that are moved to a depth. -/
def lowered (depth : Nat) (lines : List String) : List String :=
  lines.map (Text.blanks (2 * depth) ++ ·)

section Trees

variable {limit : Option Int}

theorem eachLines_eq_map (colour : Bool) (limit : Option Int) (depth : Nat) (trees : List Tree) :
    eachLines colour limit depth trees = trees.map (treeLines colour limit depth) := by
  induction trees with
  | nil => rfl
  | cons tree trees ih => rw [eachLines, ih, List.map_cons]

/-- A list stands two levels below its node. -/
theorem lowered_add_two (depth : Nat) (lines : List String) :
    lowered (depth + 2) lines = lowered depth (lines.map ("    " ++ ·)) := by
  have indent : Text.blanks (2 * (depth + 2)) = Text.blanks (2 * depth) ++ "    " := by
    rw [← String.toList_inj, String.toList_append, toList_blanks, toList_blanks, Nat.mul_add,
      List.replicate_add]
    rfl
  rw [lowered, lowered, List.map_map, indent]
  exact List.map_congr_left fun line _ => String.append_assoc

/-- The list of a node is listed, if its items have their lines at every depth. -/
theorem listing_eq {depth : Nat} {name : String} {trees : List Tree} {lines : Tree → List String}
    (each : ∀ tree ∈ trees, ∀ depth,
      treeLines false limit depth tree = lowered depth (lines tree)) :
    listing false limit depth name (eachLines false limit (depth + 2) trees) =
      lowered depth (listed limit name trees ((slice limit trees).map lines)) := by
  have shownLines : (shown limit (eachLines false limit (depth + 2) trees)).flatten =
      lowered depth (((slice limit trees).map lines).flatten.map ("    " ++ ·)) := by
    have same : ∀ tree ∈ slice limit trees,
        treeLines false limit (depth + 2) tree = lowered (depth + 2) (lines tree) := by
      intro tree mem
      rw [(slice_eq trees).1, shown] at mem
      exact each tree (List.mem_of_mem_take mem) (depth + 2)
    rw [eachLines_eq_map, shown_map, ← (slice_eq trees).1, List.map_congr_left same,
      ← lowered_add_two, lowered, List.map_flatten, List.map_map]
    rfl
  have count : (eachLines false limit (depth + 2) trees).length = trees.length := by
    rw [eachLines_eq_map, List.length_map]
  rw [listing, shownLines, count, moreLines_eq, listed, lowered, lowered, List.map_cons,
    List.map_append, List.map_append, List.map_map]
  simp [paint, String.append_assoc]

theorem forall₂_drawn {trees : List Tree} {lines : Tree → List String}
    (each : ∀ tree ∈ trees, Drawn limit tree (lines tree)) :
    List.Forall₂ (Drawn limit) (slice limit trees) ((slice limit trees).map lines) := by
  rw [List.forall₂_map_right_iff, List.forall₂_same]
  intro tree mem
  rw [(slice_eq trees).1, shown] at mem
  exact each tree (List.mem_of_mem_take mem)

/-- A node is drawn with its list, if the items are drawn. -/
theorem exists_lines {trees : List Tree}
    (each : ∀ tree ∈ trees, ∃ lines, Drawn limit tree lines ∧
      ∀ depth, treeLines false limit depth tree = lowered depth lines) :
    ∃ shown, List.Forall₂ (Drawn limit) (slice limit trees) shown ∧ ∀ depth name,
      listing false limit depth name (eachLines false limit (depth + 2) trees) =
        lowered depth (listed limit name trees shown) := by
  have chosen : ∀ tree, ∃ lines, tree ∈ trees → Drawn limit tree lines ∧
      ∀ depth, treeLines false limit depth tree = lowered depth lines := by
    intro tree
    by_cases mem : tree ∈ trees
    · obtain ⟨lines, drawn⟩ := each tree mem
      exact ⟨lines, fun _ => drawn⟩
    · exact ⟨[], fun mem' => absurd mem' mem⟩
  choose lines drawn using chosen
  exact ⟨_, forall₂_drawn fun tree mem => (drawn tree mem).1,
    fun depth name => listing_eq fun tree mem => (drawn tree mem).2⟩

/-- At every depth the lines of a tree are those that it is drawn with. -/
theorem exists_drawn {a : Tree} (known : a.OfLanguage) : ∃ lines, Drawn limit a lines ∧
    ∀ depth, treeLines false limit depth a = lowered depth lines := by
  have plain : ∀ (a : Tree) (line : String), a.label ++ detail a = line →
      ∀ depth, heading false depth a = Text.blanks (2 * depth) ++ line := by
    rintro a line rfl depth
    exact heading_eq depth a
  induction known with
  | leaf kind text location =>
    refine ⟨_, .leaf kind text location, fun depth => ?_⟩
    rw [treeLines, plain _ _ rfl]
    simp [lowered, detail, Tree.label, Tree.caption?, String.append_assoc]
  | newline location =>
    refine ⟨_, .newline location, fun depth => ?_⟩
    rw [treeLines, plain _ _ rfl]
    simp [lowered, detail, Tree.label, Tree.caption?]
  | assignment each ih =>
    obtain ⟨shown, drawn, listing⟩ := exists_lines ih
    refine ⟨_, .assignment drawn, fun depth => ?_⟩
    rw [treeLines, listing, plain _ _ rfl]
    simp [lowered, detail, Tree.label, Tree.caption?, ← String.append_assoc]
  | call each ih =>
    obtain ⟨shown, drawn, listing⟩ := exists_lines ih
    refine ⟨_, .call drawn, fun depth => ?_⟩
    rw [treeLines, listing, plain _ _ rfl]
    simp [lowered, detail, Tree.label, Tree.caption?, ← String.append_assoc]
  | program each ih =>
    obtain ⟨shown, drawn, listing⟩ := exists_lines ih
    refine ⟨_, .program drawn, fun depth => ?_⟩
    rw [treeLines, listing, plain _ _ rfl]
    simp [lowered, detail, Tree.label, Tree.caption?]

theorem drawn_tree {a : Tree} (known : a.OfLanguage) :
    ∃ lines, Drawn limit a lines ∧ tree false limit a = Text.join "\n" lines := by
  obtain ⟨lines, drawn, same⟩ : ∃ lines, Drawn limit a lines ∧
      ∀ depth, treeLines false limit depth a = lowered depth lines := exists_drawn known
  refine ⟨lines, drawn, ?_⟩
  rw [tree, same 0, lowered]
  simp [Text.blanks]

end Trees

end Dump

end XoLang
