import XoLang.Proofs.Relocation

/-!
# Rendering what was read

Every tree that reading gives has a rendering, so compiling fails only where reading does. Rendering
does not look at places, and it keeps line ends: the text of two groups of trees with a line end
between them is the two texts with a line feed between them.
-/

namespace XoLang

/-- Induction over a tree and the trees right below it. -/
theorem Tree.induction {motive : Tree → Prop}
    (leaf : ∀ kind text location, motive (.leaf kind text location))
    (newline : ∀ location, motive (.newline location))
    (assignment : ∀ name body location, (∀ tree ∈ body, motive tree) →
      motive (.assignment name body location))
    (call : ∀ name params location, (∀ tree ∈ params, motive tree) →
      motive (.call name params location))
    (program : ∀ body location, (∀ tree ∈ body, motive tree) → motive (.program body location))
    (bare : ∀ location, motive (.bare location))
    (foreign : ∀ kind location, motive (.foreign kind location)) (tree : Tree) : motive tree := by
  refine @Tree.rec motive (fun trees => ∀ tree ∈ trees, motive tree) leaf newline assignment call
    program bare foreign ?_ ?_ tree
  · intro tree mem
    cases mem
  · intro tree trees first rest
    exact List.forall_mem_cons.mpr ⟨first, rest⟩

namespace JavaScript

/-! Places. -/

section Places

variable {f : Location → Location}

theorem lineBreak_relocate (tree : Tree) (following : List Tree) :
    lineBreak (tree.relocate f) (following.map (·.relocate f)) = lineBreak tree following := by
  have block : isBlock (tree.relocate f) = isBlock tree := by
    cases tree with
    | leaf kind text location => cases kind <;> rfl
    | newline | assignment | call | program | bare | foreign => rfl
  cases following with
  | nil => rfl
  | cons next following =>
    have newline : isNewline (next.relocate f) = isNewline next := by
      cases next <;> rfl
    simp only [List.map_cons, lineBreak, block, newline]

theorem renderAll_map_relocate {trees : List Tree}
    (h : ∀ tree ∈ trees, render (tree.relocate f) = render tree) :
    renderAll (trees.map (·.relocate f)) = renderAll trees := by
  induction trees with
  | nil => rfl
  | cons tree trees ih =>
    obtain ⟨first, rest⟩ := List.forall_mem_cons.mp h
    rw [List.map_cons, renderAll, renderAll, lineBreak_relocate, first, ih rest]

theorem renderEach_eq_map (trees : List Tree) : renderEach trees = trees.map render := by
  induction trees with
  | nil => rfl
  | cons tree trees ih => rw [renderEach, ih, List.map_cons]

theorem render_relocate (f : Location → Location) (tree : Tree) :
    render (tree.relocate f) = render tree := by
  induction tree using Tree.induction with
  | leaf | newline | bare | foreign => rfl
  | assignment name body location ih =>
    have same := renderAll_map_relocate ih
    simp only [Tree.relocate, Tree.relocateAll_eq_map, render, same, List.isEmpty_map]
  | call name params location ih =>
    have same : renderEach (params.map (·.relocate f)) = renderEach params := by
      rw [renderEach_eq_map, renderEach_eq_map, List.map_map]
      exact List.map_congr_left ih
    simp only [Tree.relocate, Tree.relocateAll_eq_map, render, same]
  | program body location ih =>
    simp only [Tree.relocate, Tree.relocateAll_eq_map, render, renderAll_map_relocate ih]

theorem renderAll_relocate (f : Location → Location) (trees : List Tree) :
    renderAll (trees.map (·.relocate f)) = renderAll trees :=
  renderAll_map_relocate fun tree _ => render_relocate f tree

end Places

/-! Line ends. -/

theorem lineBreak_append_newline (tree : Tree) (following : List Tree) (location : Option Location)
    (others : List Tree) :
    lineBreak tree (following ++ .newline location :: others) = lineBreak tree following := by
  cases following with
  | nil => simp [lineBreak, isNewline]
  | cons next following => rfl

theorem renderAll_append_newline (trees others : List Tree) (location : Option Location) :
    renderAll (trees ++ .newline location :: others) =
      renderAll trees ++ "\n" ++ renderAll others := by
  induction trees with
  | nil =>
    have nothing : lineBreak (.newline location) others = "" := by
      cases others <;> rfl
    simp [renderAll, render, nothing]
  | cons tree trees ih =>
    rw [List.cons_append, renderAll, renderAll, ih, lineBreak_append_newline]
    simp only [String.append_assoc]

end JavaScript

/-! What was read has a rendering. -/

theorem Single.renders {context : Context} {t : Token} {node : Option Tree}
    (h : Single context t node) (nodes : List Tree) :
    JavaScript.firstUnsupported? (node.toList ++ nodes) = JavaScript.firstUnsupported? nodes := by
  cases h with
  | boolean h word =>
    rcases word with word | word <;>
      simp [JavaScript.firstUnsupported?, JavaScript.unsupported?, JavaScript.booleanWords, word]
  | comma | separator => rfl
  | number | string | comment | commentBlock | newline => rfl

theorem Items.renders {context : Context} {tokens : List Token} {nodes : List Tree}
    (h : Items context tokens nodes) : JavaScript.firstUnsupported? nodes = none := by
  induction h with
  | empty => rfl
  | single item _ ih => rw [item.renders, ih]
  | call _ _ _ _ _ ihInside ih =>
    simp [JavaScript.firstUnsupported?, JavaScript.unsupported?, ihInside, ih]
  | declaration _ _ _ _ _ _ _ ihInside ih =>
    simp [JavaScript.firstUnsupported?, JavaScript.unsupported?, ihInside, ih]

section Compile

variable {delimiter : Delimiter} {file source : String}

theorem parse_eq_ok_iff {tree : Tree} :
    parse delimiter file source = .ok tree ↔
      ∃ tokens body, Lexed delimiter file [] source.toList tokens ∧
        Items .statement tokens body ∧ tree = .program body (some (.start file)) := by
  rw [parse, tokenize, Cursor.ofSource_eq_between]
  constructor
  · intro h
    split at h
    · cases h
    rename_i tokens scanned
    split at h
    · cases h
    rename_i read
    cases h
    obtain ⟨body, rfl, derived⟩ := parseTokens_eq_ok_iff.mp read
    exact ⟨tokens, body, lexed_of_scan scanned, derived, rfl⟩
  · rintro ⟨tokens, body, lexed, derived, rfl⟩
    simp only [scan_of_lexed lexed, parseTokens_eq_ok_iff.mpr ⟨body, rfl, derived⟩]

theorem unsupported?_of_parse {tree : Tree} (h : parse delimiter file source = .ok tree) :
    JavaScript.unsupported? tree = none := by
  obtain ⟨tokens, body, -, derived, rfl⟩ := parse_eq_ok_iff.mp h
  exact derived.renders

/-- Compiling is reading and rendering. -/
theorem compile_eq_map (delimiter : Delimiter) (file source : String) :
    compile delimiter file source = (parse delimiter file source).map JavaScript.render := by
  rw [compile]
  cases h : parse delimiter file source with
  | error e => rfl
  | ok tree => simp [JavaScript.emit, unsupported?_of_parse h, Except.map]

theorem exists_parse_of_compile {code : String}
    (compiled : compile delimiter file source = .ok code) :
    ∃ tree, parse delimiter file source = .ok tree ∧ code = JavaScript.render tree := by
  rw [compile_eq_map] at compiled
  cases parsed : parse delimiter file source with
  | error e =>
    rw [parsed] at compiled
    cases compiled
  | ok tree =>
    rw [parsed] at compiled
    cases compiled
    exact ⟨tree, rfl, rfl⟩

/-- A source of one token is rendered as the node of the token. -/
theorem compile_token {kind : TokenKind} {text raw : List Char} {node : Tree}
    (spelled : Spelled delimiter kind text raw [])
    (item : Single .statement ⟨kind, String.ofList text, .start file⟩ (some node)) :
    compile delimiter file (String.ofList raw) = .ok (JavaScript.render node) := by
  have none : Gap [] := by simp [Gap]
  have lexed : Lexed delimiter file [] ([] ++ raw ++ [])
      [⟨kind, String.ofList text, .start file⟩] := .token none spelled (.done none)
  have parsed : parse delimiter file (String.ofList raw) =
      .ok (.program [node] (some (.start file))) :=
    parse_eq_ok_iff.mpr ⟨_, _, by simpa using lexed, .single item .empty, by simp⟩
  rw [compile_eq_map, parsed]
  simp [Except.map, JavaScript.render, JavaScript.renderAll, JavaScript.lineBreak]

end Compile

end XoLang
