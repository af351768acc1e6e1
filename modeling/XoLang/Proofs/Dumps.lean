import Mathlib
import XoLang.Dump
import XoLang.Proofs.Quoting
import XoLang.Proofs.Walking

/-!
# Dumps, told apart

A dump without colour and limit tells all that it was made of. Quoted texts hold no line end, so a
dump falls into its lines again. The line of a token falls into words. The lines of a tree are told
apart by their depth: whatever stands below a node is indented further than the node, so two trees
with one dump have the same nodes in the same places.
-/

namespace XoLang

/-- A tree of nodes of the language. -/
inductive Tree.OfLanguage : Tree → Prop
  | leaf (kind : LeafKind) (text : String) (location : Option Location) :
      OfLanguage (.leaf kind text location)
  | newline (location : Option Location) : OfLanguage (.newline location)
  | assignment {name : String} {body : List Tree} {location : Option Location}
      (each : ∀ tree ∈ body, OfLanguage tree) : OfLanguage (.assignment name body location)
  | call {name : String} {params : List Tree} {location : Option Location}
      (each : ∀ tree ∈ params, OfLanguage tree) : OfLanguage (.call name params location)
  | program {body : List Tree} {location : Option Location}
      (each : ∀ tree ∈ body, OfLanguage tree) : OfLanguage (.program body location)

/-- What a dump tells of a token: its kind and text, and its line and column. -/
def Token.told (t : Token) : TokenKind × String × Int × Int :=
  (t.kind, t.text, t.location.line, t.location.column)

namespace Dump

/-! Lines. -/

/-- A line of printable characters. -/
def Visible (line : String) : Prop := ∀ c ∈ line.toList, Text.isPrintable c = true

theorem Visible.append {a b : String} (front : Visible a) (back : Visible b) :
    Visible (a ++ b) := by
  rw [Visible, String.toList_append, List.forall_mem_append]
  exact ⟨front, back⟩

theorem Visible.not_newline {line : String} (visible : Visible line) : '\n' ∉ line.toList := by
  intro mem
  exact absurd (visible '\n' mem) (by decide)

theorem visible_quoted (text : String) : Visible (Text.quoted text) :=
  fun _ mem => Text.isPrintable_of_mem_quoted mem

theorem toList_blanks (n : Nat) : (Text.blanks n).toList = List.replicate n ' ' := by
  rw [Text.blanks, String.toList_ofList]

theorem visible_blanks (n : Nat) : Visible (Text.blanks n) := by
  intro c mem
  rw [toList_blanks] at mem
  rw [List.eq_of_mem_replicate mem]
  decide

/-- Lines that are joined fall into the same lines again. -/
theorem pieces_join {lines : List String} (nonempty : lines ≠ [])
    (plain : ∀ line ∈ lines, '\n' ∉ line.toList) :
    Text.pieces '\n' (Text.join "\n" lines).toList = lines.map String.toList := by
  induction lines with
  | nil => exact absurd rfl nonempty
  | cons line lines ih =>
    obtain ⟨first, rest⟩ := List.forall_mem_cons.mp plain
    cases lines with
    | nil => exact pieces_of_not_mem first
    | cons next lines =>
      have joined : (Text.join "\n" (line :: next :: lines)).toList =
          line.toList ++ '\n' :: (Text.join "\n" (next :: lines)).toList := by
        simp [Text.join]
      rw [joined, pieces_append, pieces_of_not_mem first, ih (by simp) rest]
      rfl

theorem join_inj {lines others : List String} (nonempty : lines ≠ []) (nonempty' : others ≠ [])
    (plain : ∀ line ∈ lines, Visible line) (plain' : ∀ line ∈ others, Visible line)
    (same : Text.join "\n" lines = Text.join "\n" others) : lines = others := by
  have pieces : Text.pieces '\n' (Text.join "\n" lines).toList =
      Text.pieces '\n' (Text.join "\n" others).toList := by rw [same]
  rw [pieces_join nonempty fun line mem => (plain line mem).not_newline,
    pieces_join nonempty' fun line mem => (plain' line mem).not_newline] at pieces
  exact (List.map_injective_iff.mpr fun a b => String.toList_inj.mp) pieces

/-- A word is no blank. -/
theorem word_stopsAt {word : List Char} (nonempty : word ≠ [])
    (plain : ∀ c ∈ word, decide (c ≠ ' ') = true) (rest : List Char) :
    StopsAt (fun c => decide (c = ' ')) (word ++ rest) := by
  obtain ⟨c, cs, rfl⟩ := List.exists_cons_of_ne_nil nonempty
  exact stopsAt_cons (by simpa using plain c (by simp)) _

/-! Tokens. -/

/-- Numbers in decimal are one word, which holds no colon. -/
theorem mem_toString_int {n : Int} {c : Char} (mem : c ∈ (toString n).toList) :
    c = '-' ∨ c.isDigit = true := by
  have natural : ∀ {m : Nat}, c ∈ m.repr.toList → c.isDigit = true := by
    intro m mem
    rw [Nat.toList_repr] at mem
    exact Nat.isDigit_of_mem_toDigits (by decide) (by decide) mem
  rw [Int.toString_eq_repr, Int.repr_eq_if] at mem
  split_ifs at mem
  · exact Or.inr (natural mem)
  · rw [String.toList_append] at mem
    rcases List.mem_append.mp mem with mem | mem
    · exact Or.inl (by simpa using mem)
    · exact Or.inr (natural mem)

theorem mem_position {l : Location} {c : Char} (mem : c ∈ l.position.toList) :
    c = '-' ∨ c = ':' ∨ c.isDigit = true := by
  rw [Location.position, String.toList_append, String.toList_append, List.mem_append,
    List.mem_append] at mem
  rcases mem with (mem | mem) | mem
  · exact (mem_toString_int mem).imp_right Or.inr
  · exact Or.inr (Or.inl (by simpa using mem))
  · exact (mem_toString_int mem).imp_right Or.inr

theorem isPrintable_of_ascii {c : Char} (above : 0x20 ≤ c.toNat) (below : c.toNat < 0x7f) :
    Text.isPrintable c = true := by
  rw [Text.isPrintable, if_pos (by omega), Bool.and_eq_true, decide_eq_true_eq, decide_eq_true_eq]
  exact ⟨above, below⟩

theorem isPrintable_of_isDigit {c : Char} (digit : c.isDigit = true) :
    Text.isPrintable c = true := by
  have low : 48 ≤ c.toNat ∧ c.toNat ≤ 57 := by
    simpa [Char.isDigit, UInt32.le_iff_toNat_le] using digit
  exact isPrintable_of_ascii (by omega) (by omega)

theorem position_inj {l l' : Location} (same : l.position = l'.position) :
    l.line = l'.line ∧ l.column = l'.column := by
  have number : ∀ n : Int, ∀ c ∈ (toString n).toList, decide (c ≠ ':') = true := by
    intro n c mem
    rcases mem_toString_int mem with rfl | digit
    · decide
    · exact decide_eq_true fun colon => absurd (colon ▸ digit) (by decide)
  have split : ∀ l : Location,
      l.position.toList = (toString l.line).toList ++ ':' :: (toString l.column).toList := by
    intro l
    simp [Location.position]
  rw [← String.toList_inj, split, split] at same
  obtain ⟨line, rest⟩ := run_unique (p := fun c => decide (c ≠ ':')) (number _) (number _)
    (stopsAt_cons (by decide) _) (stopsAt_cons (by decide) _) same
  have column := (List.cons.inj rest).2
  rw [String.toList_inj, Int.toString_eq_repr, Int.toString_eq_repr] at line column
  exact ⟨Int.repr_injective line, Int.repr_injective column⟩

/-- A word of ASCII signs is one word and printable. -/
theorem plain_of_signs {word : String}
    (signs : ∀ c ∈ word.toList, 0x20 < c.toNat ∧ c.toNat < 0x7f) :
    ∀ c ∈ word.toList, decide (c ≠ ' ') = true ∧ Text.isPrintable c = true := by
  intro c mem
  obtain ⟨above, below⟩ := signs c mem
  refine ⟨decide_eq_true ?_, isPrintable_of_ascii (by omega) below⟩
  rintro rfl
  exact absurd above (by decide)

theorem label_plain (kind : TokenKind) :
    ∀ c ∈ kind.label.toList, decide (c ≠ ' ') = true ∧ Text.isPrintable c = true := by
  apply plain_of_signs
  cases kind <;> simp [TokenKind.label]

theorem label_inj {kind kind' : TokenKind} (same : kind.label = kind'.label) : kind = kind' := by
  have found : ∀ kind : TokenKind, TokenKind.ofLabel? kind.label = some kind := by
    intro kind
    cases kind <;> decide
  exact Option.some_inj.mp ((found kind).symm.trans ((congrArg _ same).trans (found kind')))

theorem toList_tokenLine (t : Token) :
    (tokenLine false t).toList =
      List.replicate (8 - t.location.position.length) ' ' ++ (t.location.position.toList ++
        ' ' :: ' ' :: (t.kind.label.toList ++
          (List.replicate (14 - t.kind.label.length) ' ' ++
            ' ' :: (Text.quoted t.text).toList))) := by
  simp [tokenLine, paint, Text.padLeft, Text.padRight, toList_blanks]

theorem visible_position (l : Location) : Visible l.position := by
  intro c mem
  rcases mem_position mem with rfl | rfl | digit
  · decide
  · decide
  · exact isPrintable_of_isDigit digit

theorem visible_label (kind : TokenKind) : Visible kind.label :=
  fun c mem => (label_plain kind c mem).2

theorem visible_tokenLine (t : Token) : Visible (tokenLine false t) := by
  have gap : ∀ n, Visible (Text.blanks n) := visible_blanks
  exact ((((((gap _).append (visible_position t.location)).append (gap 2)).append
    ((visible_label t.kind).append (gap _))).append (gap 1)).append (visible_quoted t.text))

/-- The line of a token falls into its words: place, kind and text. -/
theorem tokenLine_inj {t t' : Token} (same : tokenLine false t = tokenLine false t') :
    t.told = t'.told := by
  have place : ∀ t : Token, ∀ c ∈ t.location.position.toList, decide (c ≠ ' ') = true := by
    intro t c mem
    rcases mem_position mem with rfl | rfl | digit
    · decide
    · decide
    · exact decide_eq_true fun blank => absurd (blank ▸ digit) (by decide)
  have starts : ∀ (t : Token) (rest : List Char),
      StopsAt (fun c => decide (c = ' ')) (t.location.position.toList ++ rest) :=
    fun t => word_stopsAt (by simp [Location.position]) (place t)
  have blank : ∀ n, ∀ c ∈ List.replicate n ' ', decide (c = ' ') = true := by
    intro n c mem
    exact decide_eq_true (List.eq_of_mem_replicate mem)
  have padded : ∀ (n : Nat) (rest : List Char),
      StopsAt (fun c => decide (c ≠ ' ')) (List.replicate n ' ' ++ ' ' :: rest) := by
    intro n rest
    cases n with
    | zero => exact stopsAt_cons (by decide) _
    | succ n => exact stopsAt_cons (by decide) _
  have label : ∀ t : Token, ∀ c ∈ t.kind.label.toList, decide (c ≠ ' ') = true :=
    fun t c mem => (label_plain t.kind c mem).1
  rw [← String.toList_inj, toList_tokenLine, toList_tokenLine] at same
  obtain ⟨-, same⟩ := run_unique (blank _) (blank _) (starts t _) (starts t' _) same
  obtain ⟨position, same⟩ := run_unique (place t) (place t') (stopsAt_cons (by decide) _)
    (stopsAt_cons (by decide) _) same
  obtain ⟨kind, same⟩ := run_unique (label t) (label t') (padded _ _) (padded _ _)
    (List.cons.inj (List.cons.inj same).2).2
  rw [String.toList_inj] at position kind
  rw [kind] at same
  have quoted := (List.cons.inj (List.append_cancel_left same)).2
  have text := Text.quoted_inj (String.toList_inj.mp quoted)
  obtain ⟨line, column⟩ := position_inj position
  simp only [Token.told, label_inj kind, text, line, column]

theorem tokens_none (xs : List Token) :
    tokens false none xs = Text.join "\n" (xs.map (tokenLine false)) := by
  simp [tokens, shown, moreLines, shownCount]

/-- There is one line for every token. -/
theorem pieces_tokens {xs : List Token} (nonempty : xs ≠ []) :
    Text.pieces '\n' (tokens false none xs).toList =
      xs.map fun t => (tokenLine false t).toList := by
  rw [tokens_none, pieces_join (by simpa using nonempty), List.map_map]
  · rfl
  · simp only [List.forall_mem_map]
    exact fun t _ => (visible_tokenLine t).not_newline

theorem told_of_tokens {xs ys : List Token} (same : tokens false none xs = tokens false none ys) :
    xs.map Token.told = ys.map Token.told := by
  -- an empty list has an empty line, which no token has
  have none_left : ∀ {ys : List Token}, tokens false none [] = tokens false none ys → ys = [] := by
    intro ys same
    by_contra nonempty
    have pieces := pieces_tokens nonempty
    rw [← same] at pieces
    obtain ⟨t, ys, rfl⟩ := List.exists_cons_of_ne_nil nonempty
    have first : [] = (tokenLine false t).toList := (List.cons.inj pieces).1
    rw [toList_tokenLine] at first
    simp at first
  by_cases empty : xs = []
  · rw [empty] at same ⊢
    rw [none_left same]
  by_cases empty' : ys = []
  · rw [empty'] at same ⊢
    rw [none_left same.symm]
  rw [tokens_none, tokens_none] at same
  have lines := join_inj (by simpa using empty) (by simpa using empty')
    (List.forall_mem_map.mpr fun t _ => visible_tokenLine t)
    (List.forall_mem_map.mpr fun t _ => visible_tokenLine t) same
  rw [← List.forall₂_eq_eq_eq, List.forall₂_map_left_iff, List.forall₂_map_right_iff] at lines ⊢
  exact lines.imp fun _ _ => tokenLine_inj

/-! Trees. -/

/-- Two nodes of one kind with one text or name, whatever stands below them. -/
inductive SameNode : Tree → Tree → Prop
  | leaf (kind : LeafKind) (text : String) (location location' : Option Location) :
      SameNode (.leaf kind text location) (.leaf kind text location')
  | newline (location location' : Option Location) :
      SameNode (.newline location) (.newline location')
  | assignment (name : String) (body body' : List Tree) (location location' : Option Location) :
      SameNode (.assignment name body location) (.assignment name body' location')
  | call (name : String) (params params' : List Tree) (location location' : Option Location) :
      SameNode (.call name params location) (.call name params' location')
  | program (body body' : List Tree) (location location' : Option Location) :
      SameNode (.program body location) (.program body' location')

section Nodes

variable {a b : Tree}

theorem leafLabel_inj {kind kind' : LeafKind} (same : kind.label = kind'.label) : kind = kind' := by
  cases kind <;> cases kind' <;> first | rfl | exact absurd same (by decide)

theorem sameNode_of_label (known : a.OfLanguage) (known' : b.OfLanguage)
    (label : a.label = b.label) (caption : a.caption? = b.caption?) : SameNode a b := by
  have leaf : ∀ kind : LeafKind, kind.label ∉ ["NewLine", "VariableAssignment", "FunctionCall",
      "Program"] := by
    intro kind
    cases kind <;> decide
  cases known <;> cases known' <;> simp_all [Tree.label, Tree.caption?]
  case leaf.leaf =>
    rw [leafLabel_inj label]
    exact .leaf ..
  case newline.newline => exact .newline ..
  case assignment.assignment => exact .assignment ..
  case call.call => exact .call ..
  case program.program => exact .program ..

/-- The label of a node is one word. -/
theorem treeLabel_plain (known : a.OfLanguage) :
    ∀ c ∈ a.label.toList, decide (c ≠ ' ') = true ∧ Text.isPrintable c = true := by
  apply plain_of_signs
  cases known with
  | leaf kind _ _ => cases kind <;> simp [Tree.label, LeafKind.label]
  | newline | assignment | call | program => simp [Tree.label]

theorem caption_name {name text : String} (caption : a.caption? = some (name, text)) :
    name = "text" ∨ name = "name" := by
  cases a <;> simp_all [Tree.caption?]

/-- What stands behind the label of a node in its first line. -/
def detail (tree : Tree) : String :=
  match tree.caption? with
  | some (name, text) => " " ++ name ++ "=" ++ Text.quoted text
  | none => ""

theorem heading_eq (depth : Nat) (tree : Tree) :
    heading false depth tree = Text.blanks (2 * depth) ++ (tree.label ++ detail tree) := by
  rw [heading, ← String.append_assoc]
  rfl

theorem stopsAt_detail (tree : Tree) :
    StopsAt (fun c => decide (c ≠ ' ')) (detail tree).toList := by
  rw [detail]
  split
  · simp only [String.append_assoc, String.toList_append]
    exact stopsAt_cons (by decide) _
  · exact stopsAt_nil _

theorem detail_inj (same : detail a = detail b) : a.caption? = b.caption? := by
  cases caption : a.caption? with
  | none =>
    cases caption' : b.caption? with
    | none => rfl
    | some pair => simp [detail, caption, caption', ← String.toList_inj] at same
  | some pair =>
    obtain ⟨name, text⟩ := pair
    cases caption' : b.caption? with
    | none => simp [detail, caption, caption', ← String.toList_inj] at same
    | some pair' =>
      obtain ⟨name', text'⟩ := pair'
      simp only [detail, caption, caption'] at same
      rcases caption_name caption with rfl | rfl <;> rcases caption_name caption' with rfl | rfl
      · rw [Text.quoted_inj ((String.append_right_inj _).mp same)]
      · simp [← String.toList_inj] at same
      · simp [← String.toList_inj] at same
      · rw [Text.quoted_inj ((String.append_right_inj _).mp same)]

/-- The first line of a node tells the node. -/
theorem sameNode_of_heading (known : a.OfLanguage) (known' : b.OfLanguage) {depth : Nat}
    (same : heading false depth a = heading false depth b) : SameNode a b := by
  rw [heading_eq, heading_eq, String.append_right_inj, ← String.toList_inj, String.toList_append,
    String.toList_append] at same
  obtain ⟨label, details⟩ := run_unique (fun c mem => (treeLabel_plain known c mem).1)
    (fun c mem => (treeLabel_plain known' c mem).1) (stopsAt_detail a) (stopsAt_detail b) same
  exact sameNode_of_label known known' (String.toList_inj.mp label)
    (detail_inj (String.toList_inj.mp details))

theorem visible_detail (tree : Tree) : Visible (detail tree) := by
  cases caption : tree.caption? with
  | none => simp [detail, caption, Visible]
  | some pair =>
    obtain ⟨name, text⟩ := pair
    have field : Visible (" " ++ name ++ "=") := by
      rcases caption_name caption with rfl | rfl <;> simp [Visible, Text.isPrintable]
    simpa [detail, caption] using field.append (visible_quoted text)

theorem visible_treeLabel (known : a.OfLanguage) : Visible a.label :=
  fun c mem => (treeLabel_plain known c mem).2

theorem visible_heading (known : a.OfLanguage) (depth : Nat) : Visible (heading false depth a) := by
  rw [heading_eq]
  exact (visible_blanks _).append ((visible_treeLabel known).append (visible_detail a))

/-- How far a line is indented. -/
def indent (line : String) : Nat := (line.toList.takeWhile fun c => decide (c = ' ')).length

theorem indent_heading (known : a.OfLanguage) (depth : Nat) :
    indent (heading false depth a) = 2 * depth := by
  have nonempty : a.label.toList ≠ [] := by
    cases known with
    | leaf kind _ _ => cases kind <;> simp [Tree.label, LeafKind.label]
    | newline | assignment | call | program => simp [Tree.label]
  have stops := word_stopsAt nonempty (fun c mem => (treeLabel_plain known c mem).1)
    (detail a).toList
  rw [indent, heading_eq, String.toList_append, String.toList_append, toList_blanks,
    takeWhile_append_of_stopsAt (by simp) stops, List.length_replicate]

/-- The lines of a list of trees and their name, below a node. -/
theorem listing_none (depth : Nat) (name : String) (each : List (List String)) :
    listing false none depth name each =
      (Text.blanks (2 * depth) ++ "  " ++ (name ++ ":")) :: each.flatten := by
  simp [listing, shown, shownCount, moreLines, paint]

theorem treeLines_head (depth : Nat) (tree : Tree) :
    ∃ below, treeLines false none depth tree = heading false depth tree :: below := by
  cases tree <;> exact ⟨_, rfl⟩

theorem sameNode_of_treeLines (known : a.OfLanguage) (known' : b.OfLanguage) {depth : Nat}
    {rest rest' : List String}
    (same : treeLines false none depth a ++ rest = treeLines false none depth b ++ rest') :
    SameNode a b := by
  obtain ⟨below, lines⟩ := treeLines_head depth a
  obtain ⟨below', lines'⟩ := treeLines_head depth b
  rw [lines, lines'] at same
  exact sameNode_of_heading known known' (List.cons.inj same).1

/-- Lines that do not go on at a depth. -/
def Ends (depth : Nat) (lines : List String) : Prop :=
  StopsAt (fun line => decide (2 * depth ≤ indent line)) lines

/-- Behind a node that stands at a depth, nothing stands below it. -/
theorem ends_treeLines (known : a.OfLanguage) (depth : Nat) (more : List String) :
    Ends (depth + 2) (treeLines false none depth a ++ more) := by
  obtain ⟨below, lines⟩ := treeLines_head depth a
  rw [lines]
  exact stopsAt_cons (by simp [indent_heading known]) _

theorem not_ends_treeLines (known : a.OfLanguage) (depth : Nat) (more : List String) :
    ¬ Ends depth (treeLines false none depth a ++ more) := by
  obtain ⟨below, lines⟩ := treeLines_head depth a
  intro ends
  rw [lines] at ends
  simpa [indent_heading known] using ends _ _ rfl

theorem ends_eachLines {trees : List Tree} (known : ∀ tree ∈ trees, tree.OfLanguage) {depth : Nat}
    {rest : List String} (ends : Ends depth rest) :
    Ends (depth + 2) ((eachLines false none depth trees).flatten ++ rest) := by
  cases trees with
  | nil =>
    intro line more lines
    have := ends line more lines
    simp only [decide_eq_false_iff_not] at this ⊢
    omega
  | cons tree trees =>
    rw [eachLines, List.flatten_cons, List.append_assoc]
    exact ends_treeLines (known tree (by simp)) depth _

/-- A tree is told by its lines, and so is where it ends. -/
def Cancels (a : Tree) : Prop :=
  ∀ {b : Tree} {depth : Nat} {rest rest' : List String}, b.OfLanguage → Ends (depth + 2) rest →
    Ends (depth + 2) rest' →
    treeLines false none depth a ++ rest = treeLines false none depth b ++ rest' →
      a.alike b = true ∧ rest = rest'

/-- Trees that are told by their lines are told one after the other. -/
theorem eachLines_cancel {trees others : List Tree} {depth : Nat} {rest rest' : List String}
    (known : ∀ tree ∈ trees, tree.OfLanguage) (known' : ∀ tree ∈ others, tree.OfLanguage)
    (cancels : ∀ tree ∈ trees, Cancels tree) (ends : Ends depth rest) (ends' : Ends depth rest')
    (same : (eachLines false none depth trees).flatten ++ rest =
      (eachLines false none depth others).flatten ++ rest') :
    Tree.allAlike trees others = true ∧ rest = rest' := by
  induction trees generalizing others with
  | nil =>
    cases others with
    | nil => exact ⟨rfl, same⟩
    | cons other others =>
      rw [eachLines, eachLines, List.flatten_cons, List.append_assoc, List.flatten_nil,
        List.nil_append] at same
      rw [same] at ends
      exact absurd ends (not_ends_treeLines (known' other (by simp)) depth _)
  | cons tree trees ih =>
    rw [List.forall_mem_cons] at known cancels
    cases others with
    | nil =>
      rw [eachLines, eachLines, List.flatten_cons, List.append_assoc, List.flatten_nil,
        List.nil_append] at same
      rw [← same] at ends'
      exact absurd ends' (not_ends_treeLines known.1 depth _)
    | cons other others =>
      rw [List.forall_mem_cons] at known'
      simp only [eachLines, List.flatten_cons, List.append_assoc] at same
      obtain ⟨first, same⟩ := cancels.1 known'.1 (ends_eachLines known.2 ends)
        (ends_eachLines known'.2 ends') same
      obtain ⟨more, same⟩ := ih known.2 known'.2 cancels.2 same
      exact ⟨by simp [Tree.allAlike, first, more], same⟩

theorem listing_cancel {trees others : List Tree} {depth : Nat} {rest rest' : List String}
    {first first' name : String} (known : ∀ tree ∈ trees, tree.OfLanguage)
    (known' : ∀ tree ∈ others, tree.OfLanguage) (cancels : ∀ tree ∈ trees, Cancels tree)
    (ends : Ends (depth + 2) rest) (ends' : Ends (depth + 2) rest')
    (same :
      first :: listing false none depth name (eachLines false none (depth + 2) trees) ++ rest =
      first' :: listing false none depth name (eachLines false none (depth + 2) others) ++ rest') :
    Tree.allAlike trees others = true ∧ rest = rest' := by
  simp only [listing_none, List.cons_append, List.cons.injEq, true_and] at same
  exact eachLines_cancel known known' cancels ends ends' same.2

/-- Every tree of the language is told by its lines. The line after it stands no deeper than the
tree itself, while the trees of its list all do. -/
theorem cancels_of_ofLanguage (known : a.OfLanguage) : Cancels a := by
  induction known with
  | leaf kind text location =>
    intro b depth rest rest' known' _ _ same
    cases sameNode_of_treeLines (.leaf kind text location) known' same
    exact ⟨by simp [Tree.alike], (List.cons.inj same).2⟩
  | newline location =>
    intro b depth rest rest' known' _ _ same
    cases sameNode_of_treeLines (.newline location) known' same
    exact ⟨rfl, (List.cons.inj same).2⟩
  | assignment each ih =>
    intro b depth rest rest' known' ends ends' same
    cases sameNode_of_treeLines (.assignment each) known' same
    cases known' with
    | assignment each' =>
      obtain ⟨alike, same⟩ := listing_cancel each each' ih ends ends' same
      exact ⟨by simp [Tree.alike, alike], same⟩
  | call each ih =>
    intro b depth rest rest' known' ends ends' same
    cases sameNode_of_treeLines (.call each) known' same
    cases known' with
    | call each' =>
      obtain ⟨alike, same⟩ := listing_cancel each each' ih ends ends' same
      exact ⟨by simp [Tree.alike, alike], same⟩
  | program each ih =>
    intro b depth rest rest' known' ends ends' same
    cases sameNode_of_treeLines (.program each) known' same
    cases known' with
    | program each' =>
      obtain ⟨alike, same⟩ := listing_cancel each each' ih ends ends' same
      exact ⟨by simp [Tree.alike, alike], same⟩

theorem visible_eachLines {trees : List Tree} {depth : Nat}
    (all : ∀ tree ∈ trees, ∀ line ∈ treeLines false none depth tree, Visible line) :
    ∀ line ∈ (eachLines false none depth trees).flatten, Visible line := by
  induction trees with
  | nil => simp [eachLines]
  | cons tree trees ih =>
    rw [List.forall_mem_cons] at all
    rw [eachLines, List.flatten_cons, List.forall_mem_append]
    exact ⟨all.1, ih all.2⟩

theorem visible_node {trees : List Tree} {name : String} (known : a.OfLanguage)
    (field : Visible name)
    (all : ∀ tree ∈ trees, ∀ depth, ∀ line ∈ treeLines false none depth tree, Visible line)
    (depth : Nat) :
    ∀ line ∈ heading false depth a ::
      listing false none depth name (eachLines false none (depth + 2) trees), Visible line := by
  have colon : Visible ":" := by simp [Visible, Text.isPrintable]
  rw [listing_none, List.forall_mem_cons, List.forall_mem_cons]
  exact ⟨visible_heading known depth,
    ((visible_blanks _).append (visible_blanks 2)).append (field.append colon),
    visible_eachLines fun tree mem => all tree mem (depth + 2)⟩

theorem visible_treeLines (known : a.OfLanguage) :
    ∀ depth, ∀ line ∈ treeLines false none depth a, Visible line := by
  have body : Visible "body" := by simp [Visible, Text.isPrintable]
  have params : Visible "params" := by simp [Visible, Text.isPrintable]
  induction known with
  | leaf kind text location =>
    exact fun depth =>
      List.forall_mem_singleton.mpr (visible_heading (.leaf kind text location) depth)
  | newline location =>
    exact fun depth => List.forall_mem_singleton.mpr (visible_heading (.newline location) depth)
  | assignment each ih => exact visible_node (.assignment each) body ih
  | call each ih => exact visible_node (.call each) params ih
  | program each ih => exact visible_node (.program each) body ih

theorem alike_of_tree (known : a.OfLanguage) (known' : b.OfLanguage)
    (same : tree false none a = tree false none b) : a.alike b = true := by
  have nonempty : ∀ tree : Tree, treeLines false none 0 tree ≠ [] := by
    intro tree
    obtain ⟨below, lines⟩ := treeLines_head 0 tree
    simp [lines]
  have lines := join_inj (nonempty a) (nonempty b) (visible_treeLines known 0)
    (visible_treeLines known' 0) same
  have whole : treeLines false none 0 a ++ [] = treeLines false none 0 b ++ [] := by rw [lines]
  exact (cancels_of_ofLanguage known known' (stopsAt_nil _) (stopsAt_nil _) whole).1

end Nodes

/-- Dumps without colour and limit are unambiguous: trees of the language with one dump are equal up
to places, tokens with one dump agree in kind, text, line and column, and a dump of tokens has a
line for each of them. -/
theorem unambiguous :
    (∀ a b : Tree, a.OfLanguage → b.OfLanguage → tree false none a = tree false none b →
      a.alike b = true) ∧
    (∀ xs ys : List Token, tokens false none xs = tokens false none ys →
      xs.map Token.told = ys.map Token.told) ∧
    (∀ xs : List Token, xs ≠ [] →
      (Text.pieces '\n' (tokens false none xs).toList).length = xs.length) := by
  refine ⟨fun a b known known' same => alike_of_tree known known' same,
    fun xs ys same => told_of_tokens same, fun xs nonempty => ?_⟩
  rw [pieces_tokens nonempty, List.length_map]

/-- Texts that look like the lines of a dump make no difference, nor do places and files. -/
theorem unambiguous_of_imitation :
    (Tree.program
      [.assignment "x'\n  body:" [.leaf .string "\u2028NewLine\"" none] none] none).alike
      (.program [.assignment "x'\n  body:" [.leaf .string "\u2028NewLine\"" (some (.start "a.xo"))]
        none] (some (.start "a.xo"))) = true ∧
    [Token.mk .string "a\n     1:9  NAME           'b'" (.start "a.xo")].map Token.told =
      [Token.mk .string "a\n     1:9  NAME           'b'" (.start "b.xo")].map Token.told ∧
    (Text.pieces '\n' (tokens false none
      [.mk .string "a\n     1:9  NAME           'b'" (.start "a.xo")]).toList).length = 1 :=
  have leaf : ∀ location, ∀ tree ∈ [Tree.leaf .string "\u2028NewLine\"" location],
      tree.OfLanguage :=
    fun location => List.forall_mem_singleton.mpr (.leaf .string _ location)
  ⟨unambiguous.1 _ _ (.program (List.forall_mem_singleton.mpr (.assignment (leaf none))))
      (.program (List.forall_mem_singleton.mpr (.assignment (leaf (some (.start "a.xo")))))) rfl,
    unambiguous.2.1 _ _ rfl, unambiguous.2.2 _ (by simp)⟩

end Dump

end XoLang
