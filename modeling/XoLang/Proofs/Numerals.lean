import XoLang.Proofs.Listing
import XoLang.Text.Integer

/-!
# Numerals

A number is rendered as its digits, without the underscores between them. JavaScript reads digits as
a decimal number, but octal digits behind a zero as an octal one. So the digits stand for the same
number unless they are such octal digits and the number is eight or more.
-/

namespace XoLang

/-- A number as it is spelled: a digit, then digits with or without an underscore in front. -/
def NumberLexeme (raw : List Char) : Prop :=
  ∃ c groups, raw = c :: groups ∧ isDigit c = true ∧ DigitGroups groups

/-- The number that a spelled number stands for: its digits, read as a decimal number. -/
def lexemeValue (raw : List Char) : Nat := Text.digitsValue 10 (raw.filter (· != '_'))

namespace JavaScript

/-- Whether digits are an octal number of the older kind: a zero and octal digits behind it. -/
def isLegacyOctal : List Char → Bool
  | '0' :: digits => !digits.isEmpty && digits.all (Text.isDigitTo 8)
  | _ => false

/-- The number that digits stand for in JavaScript. -/
def numeralValue (digits : List Char) : Nat :=
  Text.digitsValue (if isLegacyOctal digits then 8 else 10) digits

/-- The digits of a spelled number, which stand for it unless JavaScript reads them as an octal
number and the number is eight or more. -/
structure NumeralFor (raw digits : List Char) : Prop where
  kept : digits = raw.filter (· != '_')
  numeral : Numeral digits
  value : numeralValue digits = lexemeValue raw ↔
    (isLegacyOctal digits = true → lexemeValue raw < 8)

/-! Decimal and octal numbers. -/

theorem digitsValue_append (base : Nat) (digits : List Char) (d : Char) :
    Text.digitsValue base (digits ++ [d]) =
      base * Text.digitsValue base digits + (Text.hexValue? d).getD 0 := by
  simp [Text.digitsValue]

theorem octal_le_decimal (digits : List Char) :
    Text.digitsValue 8 digits ≤ Text.digitsValue 10 digits := by
  induction digits using List.reverseRecOn with
  | nil => exact Nat.le_refl 0
  | append_singleton digits d ih =>
    rw [digitsValue_append, digitsValue_append]
    omega

theorem hexValue?_lt_of_isDigitTo {base : Nat} {d : Char} (positive : 0 < base)
    (h : Text.isDigitTo base d = true) : (Text.hexValue? d).getD 0 < base := by
  rw [Text.isDigitTo] at h
  cases value : Text.hexValue? d with
  | none => exact positive
  | some n => simpa [value] using h

/-- Read with the other base, octal digits stand for the same number only if it has one digit. -/
theorem octal_eq_decimal_iff {digits : List Char}
    (octal : ∀ d ∈ digits, Text.isDigitTo 8 d = true) :
    Text.digitsValue 8 digits = Text.digitsValue 10 digits ↔ Text.digitsValue 10 digits < 8 := by
  cases digits using List.reverseRecOn with
  | nil => exact iff_of_true rfl (by decide)
  | append_singleton digits d =>
    have below := octal_le_decimal digits
    have small := hexValue?_lt_of_isDigitTo (by decide) (octal d (by simp))
    -- The digits in front count eight times and ten times, which is the same only for zero.
    rw [digitsValue_append, digitsValue_append]
    omega

theorem isDigitTo_of_isLegacyOctal {digits : List Char} (h : isLegacyOctal digits = true) :
    ∀ d ∈ digits, Text.isDigitTo 8 d = true := by
  rw [isLegacyOctal.eq_def] at h
  split at h
  · rename_i digits
    simp only [Bool.and_eq_true, List.all_eq_true] at h
    exact List.forall_mem_cons.mpr ⟨by decide, h.2⟩
  · cases h

theorem numeralValue_eq_iff (digits : List Char) :
    numeralValue digits = Text.digitsValue 10 digits ↔
      (isLegacyOctal digits = true → Text.digitsValue 10 digits < 8) := by
  rw [numeralValue]
  split_ifs with octal
  · rw [octal_eq_decimal_iff (isDigitTo_of_isLegacyOctal octal)]
    simp [octal]
  · simp [octal]

/-! Where a number is rendered. -/

theorem infix_last (front between text : List Char) : text <:+: front ++ (between ++ text) := by
  rw [← List.append_assoc]
  exact (List.suffix_append _ _).isInfix

theorem infix_renderAll {trees : List Tree} {tree : Tree} (mem : tree ∈ trees) :
    (render tree).toList <:+: (renderAll trees).toList := by
  induction trees with
  | nil => cases mem
  | cons first trees ih =>
    rw [renderAll, String.toList_append, String.toList_append, List.append_assoc]
    rcases List.mem_cons.mp mem with rfl | later
    · exact (List.prefix_append _ _).isInfix
    · apply (ih later).trans
      exact infix_last _ _ _

theorem infix_join (separator : String) {texts : List String} {text : String}
    (mem : text ∈ texts) : text.toList <:+: (Text.join separator texts).toList := by
  induction texts with
  | nil => cases mem
  | cons first texts ih =>
    cases texts with
    | nil =>
      obtain rfl := List.mem_singleton.mp mem
      exact List.infix_rfl
    | cons second texts =>
      have whole : (Text.join separator (first :: second :: texts)).toList =
          first.toList ++ (separator.toList ++ (Text.join separator (second :: texts)).toList) := by
        simp [Text.join]
      rw [whole]
      rcases List.mem_cons.mp mem with rfl | later
      · exact (List.prefix_append _ _).isInfix
      · apply (ih later).trans
        exact infix_last _ _ _

/-- The text of a tree holds the texts of all nodes below it. -/
theorem infix_render {tree node : Tree} (below : node ∈ tree.nodes) :
    (render node).toList <:+: (render tree).toList := by
  induction tree using Tree.induction with
  | leaf | newline | bare | foreign =>
    obtain rfl : node = _ := by simpa [Tree.nodes] using below
    exact List.infix_rfl
  | assignment name body location ih =>
    rcases List.mem_cons.mp below with rfl | below
    · exact List.infix_rfl
    obtain ⟨tree, mem, below⟩ := Tree.exists_of_mem_allNodes below
    apply (ih tree mem below).trans
    apply (infix_renderAll mem).trans
    have nonempty : ¬ body.isEmpty = true := by
      intro empty
      rw [List.isEmpty_iff.mp empty] at mem
      cases mem
    simp only [render, if_neg nonempty, String.toList_append]
    exact infix_last _ _ _
  | call name params location ih =>
    rcases List.mem_cons.mp below with rfl | below
    · exact List.infix_rfl
    obtain ⟨tree, mem, below⟩ := Tree.exists_of_mem_allNodes below
    apply (ih tree mem below).trans
    apply (infix_join ", " (List.mem_map_of_mem mem)).trans
    rw [render, renderEach_eq_map, String.toList_append, String.toList_append, String.toList_append]
    exact List.infix_append _ _ _
  | program body location ih =>
    rcases List.mem_cons.mp below with rfl | below
    · exact List.infix_rfl
    obtain ⟨tree, mem, below⟩ := Tree.exists_of_mem_allNodes below
    apply (ih tree mem below).trans
    exact infix_renderAll mem

end JavaScript

open JavaScript

/-! Numbers of a source. -/

section Sources

variable {delimiter : Delimiter} {kind : TokenKind} {text raw after : List Char}

theorem Spelled.numberLexeme (h : Spelled delimiter kind text raw after)
    (isNumber : kind = .number) :
    NumberLexeme raw ∧ NumberEnds after ∧ text = raw.filter (· != '_') := by
  cases h with
  | newline | comment | commentBlock | string | name => cases isNumber
  | punctuation mark =>
    subst isNumber
    simp [punctuationMarks] at mark
  | @number c groups _ first more ends => exact ⟨⟨c, groups, rfl, first, more⟩, ends, rfl⟩

theorem NumberLexeme.numeralFor (h : NumberLexeme raw) :
    NumeralFor raw (raw.filter (· != '_')) := by
  obtain ⟨c, groups, rfl, first, more⟩ := h
  refine ⟨rfl, ⟨?_, (DigitGroups.digit first more).digits⟩, numeralValue_eq_iff _⟩
  rw [List.filter_cons_of_pos (by simpa using ne_underscore_of_isDigit first)]
  exact List.cons_ne_nil _ _

/-- Every number among derived tokens is a node. -/
theorem Items.number_mem {context : Context} {tokens : List Token} {nodes : List Tree}
    (h : Items context tokens nodes) {t : Token} (mem : t ∈ tokens) (isNumber : t.kind = .number) :
    .leaf .number t.text (some t.location) ∈ Tree.allNodes nodes := by
  induction h with
  | empty => cases mem
  | @single context u node tokens nodes item _ ih =>
    rcases List.mem_cons.mp mem with rfl | later
    · cases item with
      | number => simp [Tree.allNodes, Tree.nodes]
      | comma kind | string kind | boolean kind | comment kind | commentBlock kind | newline kind
      | separator kind => simp [kind] at isNumber
    · obtain ⟨tree, inside, below⟩ := Tree.exists_of_mem_allNodes (ih later)
      exact Tree.mem_allNodes (List.mem_append_right _ inside) below
  | @call context name paren close inner tokens params nodes naming opens _ closes _ ihInside ih =>
    simp only [List.mem_cons, List.mem_append] at mem
    rw [Tree.allNodes, List.mem_append, Tree.nodes, List.mem_cons]
    rcases mem with rfl | rfl | inside | rfl | later
    · simp [naming.1] at isNumber
    · simp [opens] at isNumber
    · exact Or.inl (Or.inr (ihInside inside))
    · simp [closes] at isNumber
    · exact Or.inr (ih later)
  | @declaration word name equals line tokens body nodes keyword naming binds _ _ _ _ ihInside ih =>
    simp only [List.mem_cons, List.mem_append] at mem
    rw [Tree.allNodes, List.mem_append, Tree.nodes, List.mem_cons]
    rcases mem with rfl | rfl | rfl | inside | later
    · simp [keyword.1] at isNumber
    · simp [naming.1] at isNumber
    · simp [binds] at isNumber
    · exact Or.inl (Or.inr (ihInside inside))
    · exact Or.inr (ih later)

end Sources

/-- Numbers keep their digits. A spelled number by itself, and every number of a source, is rendered
as its digits, which stand for the same number unless JavaScript reads them as an octal number of
eight or more. -/
theorem compile_keeps_digits (delimiter : Delimiter) (file : String) :
    (∀ raw, NumberLexeme raw → ∃ digits,
      compile delimiter file (String.ofList raw) = .ok (String.ofList digits) ∧
        NumeralFor raw digits) ∧
    ∀ source code, compile delimiter file source = .ok code →
      ∃ tokens tree, tokenize delimiter file source = .ok tokens ∧
        parseTokens file tokens = .ok tree ∧
        ∀ t ∈ tokens, t.kind = .number → ∃ before raw after,
          source.toList = before ++ raw ++ after ∧ t.location = placeAfter file before ∧
          NumberLexeme raw ∧ NumberEnds after ∧
          .leaf .number t.text (some t.location) ∈ tree.nodes ∧
          t.text.toList <:+: code.toList ∧ NumeralFor raw t.text.toList := by
  constructor
  · intro raw lexeme
    refine ⟨raw.filter (· != '_'), ?_, lexeme.numeralFor⟩
    obtain ⟨c, groups, rfl, first, more⟩ := lexeme
    have ends : NumberEnds [] := ⟨stopsAt_nil _, by simp⟩
    exact compile_token (.number first more ends) (.number rfl)
  · intro source code compiled
    obtain ⟨tree, parsed, rfl⟩ := exists_parse_of_compile compiled
    obtain ⟨tokens, body, lexed, derived, rfl⟩ := parse_eq_ok_iff.mp parsed
    have scanned : tokenize delimiter file source = .ok tokens := scan_of_lexed lexed
    refine ⟨tokens, _, scanned, parseTokens_eq_ok_iff.mpr ⟨body, rfl, derived⟩, ?_⟩
    intro t mem isNumber
    obtain ⟨before, raw, after, text, split, spelled, same, place⟩ := lexed.exists_spelled t mem
    obtain ⟨lexeme, ends, rfl⟩ := spelled.numberLexeme isNumber
    have node : .leaf .number t.text (some t.location) ∈
        (Tree.program body (some (.start file))).nodes :=
      List.mem_cons_of_mem _ (derived.number_mem mem isNumber)
    have digits : t.text.toList = raw.filter (· != '_') := by
      rw [same, String.toList_ofList]
    have rendered := infix_render node
    rw [render, leafText] at rendered
    refine ⟨before, raw, after, split, place, lexeme, ends, node, rendered, ?_⟩
    rw [digits]
    exact lexeme.numeralFor

/-- A number with a separator, by itself, and one that starts with a zero, in a call. -/
theorem separated_digits_kept :
    NumberLexeme "1_000".toList ∧
    (∃ digits, compile .default "a.xo" "1_000" = .ok (String.ofList digits) ∧
      NumeralFor "1_000".toList digits) ∧
    compile .default "a.xo" "f(0_8)" = .ok "f(08)" ∧
    ∃ tokens, tokenize .default "a.xo" "f(0_8)" = .ok tokens ∧
      ∀ t ∈ tokens, t.kind = .number → ∃ raw, raw <:+: "f(0_8)".toList ∧ NumberLexeme raw ∧
        t.text.toList <:+: "f(08)".toList ∧ NumeralFor raw t.text.toList := by
  have lexeme : NumberLexeme "1_000".toList :=
    ⟨'1', "_000".toList, rfl, by decide,
      .separated (by decide) (.digit (by decide) (.digit (by decide) .done))⟩
  have compiled : compile .default "a.xo" "f(0_8)" = .ok "f(08)" := by cbv
  obtain ⟨alone, every⟩ := compile_keeps_digits .default "a.xo"
  obtain ⟨digits, rendered, numeral⟩ := alone "1_000".toList lexeme
  rw [String.ofList_toList] at rendered
  obtain ⟨tokens, tree, scanned, -, numbers⟩ := every "f(0_8)" "f(08)" compiled
  refine ⟨lexeme, ⟨digits, rendered, numeral⟩, compiled, tokens, scanned, ?_⟩
  intro t mem isNumber
  obtain ⟨before, raw, after, split, -, spelled, -, -, inside, value⟩ := numbers t mem isNumber
  exact ⟨raw, ⟨before, after, split.symm⟩, spelled, inside, value⟩

/-- Two digits behind a zero stand for another number. -/
theorem octal_digits_differ :
    NumberLexeme "010".toList ∧ compile .default "a.xo" "010" = .ok "010" ∧
    isLegacyOctal "010".toList = true ∧ numeralValue "010".toList = 8 ∧
    lexemeValue "010".toList = 10 := by
  refine ⟨⟨'0', "10".toList, rfl, by decide, ?_⟩, by cbv, by decide, by decide, by decide⟩
  exact .digit (by decide) (.digit (by decide) .done)

end XoLang
