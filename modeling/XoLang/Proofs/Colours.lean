import XoLang.Proofs.Limits

/-!
# Dumps in colour

Colour puts escape sequences around pieces of a dump: an escape character, a bracket, the digits of
an ink and an `m`. A dump without colour holds no escape character, since the texts in it are
quoted. So a dump in colour is the one without when its sequences are deleted, and holds no other
escape character.
-/

namespace XoLang

namespace Dump

/-- What follows the escape sequence at the start of a text. -/
def afterSequence? : List Char → Option (List Char)
  | '\x1b' :: '[' :: cs =>
    match cs.takeWhile Char.isDigit, cs.dropWhile Char.isDigit with
    | _ :: _, 'm' :: rest => some rest
    | _, _ => none
  | _ => none

theorem length_afterSequence?_lt {cs rest : List Char} (found : afterSequence? cs = some rest) :
    rest.length < cs.length := by
  rw [afterSequence?.eq_def] at found
  split at found
  · rename_i cs
    split at found
    · rename_i behind
      cases found
      have shorter := (List.dropWhile_suffix Char.isDigit (l := cs)).length_le
      rw [behind] at shorter
      simp only [List.length_cons] at shorter ⊢
      omega
    · cases found
  · cases found

/-- A text with its escape sequences deleted. -/
def withoutSequences : List Char → List Char
  | [] => []
  | c :: cs =>
    match _found : afterSequence? (c :: cs) with
    | some rest => withoutSequences rest
    | none => c :: withoutSequences cs
termination_by cs => cs.length
decreasing_by
  · exact length_afterSequence?_lt _found
  · simp

section Sequences

variable {c : Char} {text digits rest : List Char}

theorem afterSequence?_of_ne (plain : c ≠ '\x1b') : afterSequence? (c :: rest) = none := by
  rw [afterSequence?.eq_def]
  split
  · rename_i same
    exact absurd (List.cons.inj same).1 plain
  · rfl

theorem withoutSequences_cons (plain : c ≠ '\x1b') :
    withoutSequences (c :: rest) = c :: withoutSequences rest := by
  rw [withoutSequences]
  split
  · rename_i found
    rw [afterSequence?_of_ne plain] at found
    cases found
  · rfl

/-- Text without escape characters stays. -/
theorem withoutSequences_append (free : '\x1b' ∉ text) :
    withoutSequences (text ++ rest) = text ++ withoutSequences rest := by
  induction text with
  | nil => rfl
  | cons c text ih =>
    rw [List.mem_cons, not_or] at free
    rw [List.cons_append, withoutSequences_cons (Ne.symm free.1), ih free.2, List.cons_append]

/-- An escape sequence goes. -/
theorem withoutSequences_sequence (nonempty : digits ≠ [])
    (all : ∀ d ∈ digits, d.isDigit = true) :
    withoutSequences ('\x1b' :: '[' :: (digits ++ 'm' :: rest)) = withoutSequences rest := by
  have stop : StopsAt Char.isDigit ('m' :: rest) := stopsAt_cons (by decide) rest
  have front := takeWhile_append_of_stopsAt all stop
  have back : (digits ++ 'm' :: rest).dropWhile Char.isDigit = 'm' :: rest := by
    have whole := List.takeWhile_append_dropWhile (p := Char.isDigit) (l := digits ++ 'm' :: rest)
    rw [front] at whole
    exact List.append_cancel_left whole
  have found : afterSequence? ('\x1b' :: '[' :: (digits ++ 'm' :: rest)) = some rest := by
    obtain ⟨d, more, rfl⟩ := List.exists_cons_of_ne_nil nonempty
    simp only [afterSequence?, front, back]
  rw [withoutSequences]
  split
  · rename_i same
    rw [found] at same
    cases same
    rfl
  · rename_i missing
    rw [found] at missing
    cases missing

end Sequences

/-- A text is another one with escape sequences put in, and the other holds no escape character.
What follows makes no difference. -/
structure Decorates (coloured plain : String) : Prop where
  free : '\x1b' ∉ plain.toList
  stripped (rest : List Char) :
    withoutSequences (coloured.toList ++ rest) = plain.toList ++ withoutSequences rest

section Decoration

variable {coloured plain coloured' plain' : String}

theorem decorates_self (free : '\x1b' ∉ plain.toList) : Decorates plain plain :=
  ⟨free, fun _ => withoutSequences_append free⟩

theorem Visible.free {line : String} (visible : Visible line) : '\x1b' ∉ line.toList :=
  fun mem => absurd (visible _ mem) (by decide)

theorem Visible.decorates (visible : Visible plain) : Decorates plain plain :=
  decorates_self visible.free

theorem Decorates.append (front : Decorates coloured plain) (back : Decorates coloured' plain') :
    Decorates (coloured ++ coloured') (plain ++ plain') where
  free := by
    rw [String.toList_append, List.mem_append]
    exact fun mem => mem.elim front.free back.free
  stripped rest := by
    rw [String.toList_append, String.toList_append, List.append_assoc, front.stripped,
      back.stripped, List.append_assoc]

theorem Decorates.withoutSequences_eq (h : Decorates coloured plain) :
    withoutSequences coloured.toList = plain.toList := by
  have whole := h.stripped []
  rwa [List.append_nil, withoutSequences, List.append_nil] at whole

/-- A painted text. -/
theorem decorates_paint (ink : Ink) (free : '\x1b' ∉ plain.toList) :
    Decorates (paint true ink plain) (paint false ink plain) where
  free := free
  stripped rest := by
    have code : ink.code.toList ≠ [] ∧ ∀ d ∈ ink.code.toList, d.isDigit = true := by
      cases ink <;> simp [Ink.code]
    have split : (paint true ink plain).toList ++ rest =
        '\x1b' :: '[' :: (ink.code.toList ++ 'm' ::
          (plain.toList ++ ('\x1b' :: '[' :: (['0'] ++ 'm' :: rest)))) := by
      simp [paint]
    rw [split, withoutSequences_sequence code.1 code.2, withoutSequences_append free,
      withoutSequences_sequence (by simp) (by simp)]
    rfl

theorem decorates_join {lines others : List String} (each : List.Forall₂ Decorates lines others) :
    Decorates (Text.join "\n" lines) (Text.join "\n" others) := by
  induction each with
  | nil => exact decorates_self (by simp [Text.join])
  | cons first rest ih =>
    cases rest with
    | nil => exact first
    | cons => exact (first.append (decorates_self (by simp))).append ih

end Decoration

/-! Tokens. -/

theorem decorates_tokenLine (t : Token) : Decorates (tokenLine true t) (tokenLine false t) := by
  have gap : ∀ n, Visible (Text.blanks n) := visible_blanks
  have position : Visible (Text.padLeft 8 t.location.position) :=
    (gap _).append (visible_position t.location)
  have label : Visible (Text.padRight 14 t.kind.label) := (visible_label t.kind).append (gap _)
  exact ((((decorates_paint .dim position.free).append (gap 2).decorates).append
    (decorates_paint .cyan label.free)).append (gap 1).decorates).append
    (visible_quoted t.text).decorates

/-- The line that tells how many items are missing. -/
theorem decorates_moreLines (limit : Option Int) {indent : String} (gap : Visible indent)
    (size : Nat) : List.Forall₂ Decorates (moreLines true limit indent size)
      (moreLines false limit indent size) := by
  have number : ∀ missing : Nat, '\x1b' ∉ Nat.toDigits 10 missing := fun missing mem =>
    absurd (Nat.isDigit_of_mem_toDigits (by decide) (by decide) mem) (by decide)
  simp only [moreLines]
  split
  · exact .nil
  · exact .cons (gap.decorates.append (decorates_paint .dim (by simp [number]))) .nil

theorem decorates_tokens (limit : Option Int) (ts : List Token) :
    Decorates (tokens true limit ts) (tokens false limit ts) := by
  have lines : ∀ ts : List Token,
      List.Forall₂ Decorates (ts.map (tokenLine true)) (ts.map (tokenLine false)) := by
    intro ts
    rw [List.forall₂_map_left_iff, List.forall₂_map_right_iff, List.forall₂_same]
    exact fun t _ => decorates_tokenLine t
  exact decorates_join
    (List.rel_append (lines _) (decorates_moreLines limit (by simp [Visible]) ts.length))

/-! Trees. -/

section Trees

variable {a : Tree}

theorem decorates_heading (known : a.OfLanguage) (depth : Nat) :
    Decorates (heading true depth a) (heading false depth a) :=
  ((visible_blanks _).decorates.append
    (decorates_paint .bold (visible_treeLabel known).free)).append (visible_detail a).decorates

theorem decorates_listing (limit : Option Int) (depth : Nat) {name : String} (field : Visible name)
    {each others : List (List String)} (same : List.Forall₂ (List.Forall₂ Decorates) each others) :
    List.Forall₂ Decorates (listing true limit depth name each)
      (listing false limit depth name others) := by
  have gap : ∀ n, Visible (Text.blanks n) := visible_blanks
  have colon : Visible ":" := by simp [Visible, Text.isPrintable]
  have kept : List.Forall₂ Decorates (shown limit each).flatten (shown limit others).flatten := by
    rw [shown, shown, same.length_eq]
    exact List.rel_flatten (List.forall₂_take _ same)
  have more := decorates_moreLines limit ((gap (2 * depth)).append (gap 4)) others.length
  rw [listing, listing, same.length_eq]
  exact .cons (((gap _).append (gap 2)).decorates.append
    (decorates_paint .dim (field.append colon).free)) (List.rel_append kept more)

theorem decorates_eachLines {limit : Option Int} {trees : List Tree} {depth : Nat}
    (each : ∀ tree ∈ trees, List.Forall₂ Decorates (treeLines true limit depth tree)
      (treeLines false limit depth tree)) :
    List.Forall₂ (List.Forall₂ Decorates) (eachLines true limit depth trees)
      (eachLines false limit depth trees) := by
  rw [eachLines_eq_map, eachLines_eq_map, List.forall₂_map_left_iff, List.forall₂_map_right_iff,
    List.forall₂_same]
  exact each

theorem decorates_node (limit : Option Int) {trees : List Tree} {name : String}
    (known : a.OfLanguage) (field : Visible name)
    (all : ∀ tree ∈ trees, ∀ depth, List.Forall₂ Decorates (treeLines true limit depth tree)
      (treeLines false limit depth tree))
    (depth : Nat) :
    List.Forall₂ Decorates
      (heading true depth a ::
        listing true limit depth name (eachLines true limit (depth + 2) trees))
      (heading false depth a ::
        listing false limit depth name (eachLines false limit (depth + 2) trees)) := by
  have below := decorates_eachLines fun tree mem => all tree mem (depth + 2)
  exact .cons (decorates_heading known depth) (decorates_listing limit depth field below)

theorem decorates_treeLines (limit : Option Int) (known : a.OfLanguage) : ∀ depth,
    List.Forall₂ Decorates (treeLines true limit depth a) (treeLines false limit depth a) := by
  have body : Visible "body" := by simp [Visible, Text.isPrintable]
  have params : Visible "params" := by simp [Visible, Text.isPrintable]
  induction known with
  | leaf kind text location =>
    exact fun depth => .cons (decorates_heading (.leaf kind text location) depth) .nil
  | newline location => exact fun depth => .cons (decorates_heading (.newline location) depth) .nil
  | assignment each ih => exact decorates_node limit (.assignment each) body ih
  | call each ih => exact decorates_node limit (.call each) params ih
  | program each ih => exact decorates_node limit (.program each) body ih

theorem decorates_tree (limit : Option Int) (known : a.OfLanguage) :
    Decorates (tree true limit a) (tree false limit a) :=
  decorates_join (decorates_treeLines limit known 0)

end Trees

/-- Colour only decorates, whatever the limit. A dump in colour is the dump without once its escape
sequences are deleted, and no escape character is left then. The dump of tokens without colour has
a line for each token of the slice and the remark on the others; the dump of a tree has a line for
each node, and below it the lines of the slice of its list and the remark on the others. -/
theorem colour_only_decorates (limit : Option Int) :
    (∀ ts : List Token,
      withoutSequences (tokens true limit ts).toList = (tokens false limit ts).toList ∧
      '\x1b' ∉ withoutSequences (tokens true limit ts).toList ∧
      ∃ rows, List.Forall₂ Row (slice limit ts) rows ∧
        tokens false limit ts = Text.join "\n" (rows ++ remark (omitted limit ts).length)) ∧
    ∀ a : Tree, a.OfLanguage →
      withoutSequences (tree true limit a).toList = (tree false limit a).toList ∧
      '\x1b' ∉ withoutSequences (tree true limit a).toList ∧
      ∃ lines, Drawn limit a lines ∧ tree false limit a = Text.join "\n" lines := by
  constructor
  · intro ts
    have decorated := decorates_tokens limit ts
    rw [decorated.withoutSequences_eq]
    exact ⟨rfl, decorated.free, rows_of_tokens limit ts⟩
  · intro a known
    have decorated := decorates_tree limit known
    rw [decorated.withoutSequences_eq]
    exact ⟨rfl, decorated.free, drawn_tree known⟩

/-- A call with a name and a text that look like escape sequences. -/
def escapingCall : Tree :=
  .program [.call "\x1b[1m" [.leaf .string "\x1b[0m" none, .leaf .number "7" none] none,
    .newline none] none

/-- What looks like escape sequences is shown in full, and all but the last item of each list are
shown. -/
theorem escapes_in_call_quoted :
    escapingCall.OfLanguage ∧
    withoutSequences (tree true (some (-1)) escapingCall).toList =
      (tree false (some (-1)) escapingCall).toList ∧
    '\x1b' ∉ withoutSequences (tree true (some (-1)) escapingCall).toList ∧
    tree false (some (-1)) escapingCall = Text.join "\n"
      ["Program", "  body:", "    FunctionCall name='\\x1b[1m'", "      params:",
        "        LiteralString text='\\x1b[0m'", "        … 1 more", "    … 1 more"] ∧
    ∀ t t' : Token, ∃ row, Row t row ∧
      tokens false (some (-1)) [t, t'] = Text.join "\n" [row, "… 1 more"] := by
  have known : escapingCall.OfLanguage :=
    .program (List.forall_mem_cons.mpr ⟨.call (List.forall_mem_cons.mpr
      ⟨.leaf .string _ none, List.forall_mem_singleton.mpr (.leaf .number _ none)⟩),
        List.forall_mem_singleton.mpr (.newline none)⟩)
  have first : ∀ {α : Type} (x y : α), slice (some (-1)) [x, y] = [x] := fun x y => rfl
  have last : ∀ {α : Type} (x y : α), remark (omitted (some (-1)) [x, y]).length = remark 1 :=
    fun x y => rfl
  have remark_one : remark 1 = ["… 1 more"] := by decide
  obtain ⟨stripped, free, lines, drawn, same⟩ :=
    (colour_only_decorates (some (-1))).2 escapingCall known
  refine ⟨known, stripped, free, ?_, ?_⟩
  · have name : Text.quoted "\x1b[1m" = "'\\x1b[1m'" := by decide
    have text : Text.quoted "\x1b[0m" = "'\\x1b[0m'" := by decide
    cases drawn with
    | program below =>
      rw [first, List.forall₂_cons_left_iff] at below
      obtain ⟨call, others, drawn, nothing, rfl⟩ := below
      cases nothing
      cases drawn with
      | call below =>
        rw [first, List.forall₂_cons_left_iff] at below
        obtain ⟨string, others, drawn, nothing, rfl⟩ := below
        cases nothing
        cases drawn
        rw [same, listed, listed, last, last, remark_one, name, text]
        rfl
  · intro t t'
    obtain ⟨rows, each, same⟩ := ((colour_only_decorates (some (-1))).1 [t, t']).2.2
    rw [first, List.forall₂_cons_left_iff] at each
    obtain ⟨row, others, isRow, nothing, rfl⟩ := each
    cases nothing
    rw [last, remark_one] at same
    exact ⟨row, isRow, same⟩

end Dump

end XoLang
