import Mathlib
import XoLang.Proofs.Comments
import XoLang.Proofs.Documents

/-!
# String literals

Strings of the language have no escapes, strings of JavaScript have them, so every character of a
string is written anew. What is written stands for the same text, by the rules of JavaScript and by
those of JSON, and a scan of generated code finds the strings of the program in their order.
-/

namespace XoLang

namespace JavaScript

/-- The UTF-16 units that a character behind a backslash stands for. A line terminator stands for
none: the literal goes on in the next line. Digits and the letters that need digits are left out. -/
def escapedUnits? (e : Char) : Option (List Nat) :=
  if isTerminator e then some []
  else if e = 'b' then some [0x08]
  else if e = 't' then some [0x09]
  else if e = 'n' then some [0x0a]
  else if e = 'v' then some [0x0b]
  else if e = 'f' then some [0x0c]
  else if e = 'r' then some [0x0d]
  else if isDigit e || e = 'u' || e = 'x' then none
  else some (Json.units e)

/-- The UTF-16 units that the inside of a literal stands for. Of the escapes of the language those
with an octal number or with braces are not read. -/
def insideUnits? : List Char → Option (List Nat)
  | [] => some []
  | '\\' :: 'u' :: a :: b :: c :: d :: cs =>
    (Text.hexNumber? 0 [a, b, c, d]).bind fun unit => (insideUnits? cs).map (unit :: ·)
  | '\\' :: 'x' :: a :: b :: cs =>
    (Text.hexNumber? 0 [a, b]).bind fun unit => (insideUnits? cs).map (unit :: ·)
  | '\\' :: '\r' :: '\n' :: cs => insideUnits? cs
  | '\\' :: e :: cs => (escapedUnits? e).bind fun units => (insideUnits? cs).map (units ++ ·)
  | c :: cs =>
    if c = '"' || c = '\\' || c = '\n' || c = '\r' then none
    else (insideUnits? cs).map (Json.units c ++ ·)

/-- The UTF-16 units that a literal between double quotes stands for. -/
def literalUnits? : List Char → Option (List Nat)
  | '"' :: cs => if cs.getLast? = some '"' then insideUnits? cs.dropLast else none
  | _ => none

/-- A literal that stands for a text, in JavaScript and in JSON. -/
structure Denotes (raw : List Char) (text : String) : Prop where
  javaScript : literalUnits? raw = some (text.toList.flatMap Json.units)
  json : Json.read (String.ofList raw) = .ok (.text (CodeText.ofString text))

/-- The characters of a part that is a string, with its quotes. -/
def Part.quoted? : Part → Option (List Char)
  | .quoted raw => some raw
  | _ => none

end JavaScript

/-- The text of a string. -/
def Tree.string? : Tree → Option String
  | .leaf .string text _ => some text
  | _ => none

/-- The texts of the strings of a tree, in their order. -/
def Tree.strings (tree : Tree) : List String := tree.nodes.filterMap Tree.string?

/-! Texts between quotes. -/

namespace Json

/-- A character is written by an escape of one letter, by its number or as it is. -/
theorem plainEscape_cases (c : Char) :
    (∃ e, escapedChar? e = some c ∧ c.toNat < 0x10000 ∧ plainEscape c = ['\\', e]) ∨
      (c.toNat < 0x20 ∧ plainEscape c = unitEscape c.toNat) ∨
      (0x20 ≤ c.toNat ∧ c ≠ '"' ∧ c ≠ '\\' ∧ plainEscape c = [c]) := by
  cases short : shortEscape? c with
  | some e =>
    obtain ⟨known, small⟩ := escapedChar?_of_shortEscape? short
    exact Or.inl ⟨e, known, small, by simp [plainEscape, short]⟩
  | none =>
    obtain ⟨notQuote, notEscape⟩ := ne_of_shortEscape? short
    by_cases control : c.toNat < 0x20
    · exact Or.inr (Or.inl ⟨control, by simp [plainEscape, short, control]⟩)
    · exact Or.inr (Or.inr ⟨by omega, notQuote, notEscape, by simp [plainEscape, short, control]⟩)

theorem Quoted.plainEscape (c : Char) {more : List Nat} {cs : List Char} (rest : Quoted more cs) :
    Quoted (units c ++ more) (plainEscape c ++ cs) := by
  rcases plainEscape_cases c with
    ⟨e, known, small, same⟩ | ⟨control, same⟩ | ⟨visible, notQuote, notEscape, same⟩
  · rw [same, units, if_pos small]
    exact .letter known rest
  · rw [same, units, if_pos (by omega)]
    exact rest.unitEscape (by omega)
  · rw [same]
    exact .plain visible notQuote notEscape rest

theorem quoted_plainEscape (text : List Char) :
    Quoted (text.flatMap units) (text.flatMap Json.plainEscape) := by
  induction text with
  | nil => exact .nil
  | cons c text ih => exact ih.plainEscape c

/-! Reading a text as JSON. -/

theorem readText_letter {e c : Char} (known : escapedChar? e = some c) (done : CodeText)
    (fuel : Nat) (cs : List Char) :
    readText done (fuel + 1) ('\\' :: e :: cs) = readText (.char c :: done) fuel cs := by
  have notUnit : e ≠ 'u' := by
    rintro rfl
    cases known
  rw [readText.eq_def]
  split <;> simp_all

theorem readText_control {c : Char} (control : c.toNat < 0x20) (done : CodeText) (fuel : Nat)
    (cs : List Char) :
    readText done (fuel + 1) (unitEscape c.toNat ++ cs) = readText (.char c :: done) fuel cs := by
  have value := hexNumber?_hexDigits 4 (Nat.lt_trans control (by decide : 0x20 < 0x10000))
  have point : CodePoint.ofNat c.toNat = .char c := by
    have notHigh : ¬ 0xd800 ≤ c.toNat := by omega
    have notLow : ¬ 0xdc00 ≤ c.toNat := by omega
    simp [CodePoint.ofNat, notHigh, notLow]
  simp only [Text.hexDigits, List.nil_append, List.cons_append] at value
  simp [unitEscape, Text.hexDigits, readText, unit?, value, point, joinUnits]

theorem readText_visible {c : Char} (visible : 0x20 ≤ c.toNat) (notQuote : c ≠ '"')
    (notEscape : c ≠ '\\') (done : CodeText) (fuel : Nat) (cs : List Char) :
    readText done (fuel + 1) (c :: cs) = readText (.char c :: done) fuel cs := by
  rw [readText.eq_def]
  split <;> simp_all

theorem readText_plainEscape (c : Char) (done : CodeText) (fuel : Nat) (cs : List Char) :
    readText done (fuel + 1) (plainEscape c ++ cs) = readText (.char c :: done) fuel cs := by
  rcases plainEscape_cases c with
    ⟨e, known, -, same⟩ | ⟨control, same⟩ | ⟨visible, notQuote, notEscape, same⟩
  · rw [same]
    exact readText_letter known done fuel cs
  · rw [same]
    exact readText_control control done fuel cs
  · rw [same]
    exact readText_visible visible notQuote notEscape done fuel cs

theorem readText_flatMap {text : List Char} {fuel : Nat} (enough : text.length < fuel)
    (done : CodeText) (rest : List Char) :
    readText done fuel (text.flatMap plainEscape ++ '"' :: rest) =
      some (done.reverse ++ CodeText.ofChars text, rest) := by
  -- A character takes one step, whatever it is written as, and so does the closing quote.
  induction text generalizing fuel done with
  | nil =>
    obtain ⟨fuel, rfl⟩ := Nat.exists_eq_add_one_of_ne_zero (Nat.ne_of_gt enough)
    simp [readText, CodeText.ofChars]
  | cons c text ih =>
    obtain ⟨fuel, rfl⟩ := Nat.exists_eq_add_one_of_ne_zero (Nat.ne_zero_of_lt enough)
    have fewer : text.length < fuel := by simpa using enough
    rw [List.flatMap_cons, List.append_assoc, readText_plainEscape, ih fewer]
    simp [CodeText.ofChars]

theorem length_le_flatMap (text : List Char) :
    text.length ≤ (text.flatMap plainEscape).length := by
  induction text with
  | nil => simp
  | cons c text ih =>
    have nonempty : 0 < (plainEscape c).length := by
      rcases plainEscape_cases c with ⟨e, -, -, same⟩ | ⟨-, same⟩ | ⟨-, -, -, same⟩ <;>
        simp [same, unitEscape]
    rw [List.flatMap_cons, List.length_append, List.length_cons]
    omega

theorem read_plainText (text : String) :
    read (plainText text) = .ok (.text (CodeText.ofString text)) := by
  have enough : text.toList.length <
      (text.toList.flatMap plainEscape ++ ['"']).length + 1 := by
    have := length_le_flatMap text.toList
    simp only [List.length_append, List.length_singleton]
    omega
  have found := readText_flatMap enough [] []
  have start : skipSpace (plainText text).toList =
      '"' :: (text.toList.flatMap plainEscape ++ ['"']) := by
    rw [plainText, String.toList_ofList, textChars]
    rfl
  rw [read, start]
  simp only [readValue, found]
  rfl

end Json

namespace JavaScript

/-! Reading a text as JavaScript. -/

/-- Escapes of one letter in JSON are escapes of JavaScript. -/
theorem escapedUnits?_of_escapedChar? {e c : Char} (known : Json.escapedChar? e = some c) :
    escapedUnits? e = some [c.toNat] ∧ e ≠ 'u' ∧ e ≠ 'x' ∧ e ≠ '\r' := by
  rw [Json.escapedChar?] at known
  split_ifs at known with itself feed carriage tab form back <;> cases known
  · simp only [Bool.or_eq_true, decide_eq_true_eq] at itself
    rcases itself with (rfl | rfl) | rfl <;> decide
  · subst feed
    decide
  · subst carriage
    decide
  · subst tab
    decide
  · subst form
    decide
  · subst back
    decide

/-- What stands between quotes in JSON stands for the same units in JavaScript. -/
theorem insideUnits?_of_quoted {units : List Nat} {cs : List Char} (h : Json.Quoted units cs) :
    insideUnits? cs = some units := by
  induction h with
  | nil => rfl
  | @plain c more cs visible notQuote notEscape _ ih =>
    have notFeed : c ≠ '\n' := by
      rintro rfl
      exact absurd visible (by decide)
    have notReturn : c ≠ '\r' := by
      rintro rfl
      exact absurd visible (by decide)
    rw [insideUnits?.eq_def]
    split <;> simp_all
  | @letter e c more cs known _ ih =>
    obtain ⟨value, notUnit, notByte, notReturn⟩ := escapedUnits?_of_escapedChar? known
    -- The patterns with more than one character behind the backslash have other letters.
    rw [insideUnits?.eq_5 e cs (fun _ _ _ _ _ same _ => notUnit same)
      (fun _ _ _ same _ => notByte same) (fun _ same _ => notReturn same), value, ih]
    rfl
  | @unit n digits more cs size value _ ih =>
    obtain ⟨a, b, c, d, rfl⟩ := List.length_eq_four.mp size
    simp [insideUnits?, value, ih]

theorem literalUnits?_quoted (inside : List Char) :
    literalUnits? ('"' :: (inside ++ ['"'])) = insideUnits? inside := by
  simp [literalUnits?]

theorem denotes_plainText (text : String) : Denotes (Json.plainText text).toList text where
  javaScript := by
    rw [Json.plainText, String.toList_ofList, Json.textChars, literalUnits?_quoted]
    exact insideUnits?_of_quoted (Json.quoted_plainEscape text.toList)
  json := by
    rw [String.ofList_toList]
    exact Json.read_plainText text

/-! The strings that a scan finds. -/

section Nodes

variable {α : Type}

/-- What stands in place of a node, if it is a leaf. -/
def onLeaf (leaf : LeafKind → String → List α) : Tree → List α
  | .leaf kind text _ => leaf kind text
  | _ => []

theorem weaveAll_leaves {leaf : LeafKind → String → List α} {trees : List Tree}
    (h : ∀ tree ∈ trees, weave leaf (fun _ => []) tree = tree.nodes.flatMap (onLeaf leaf)) :
    weaveAll leaf (fun _ => []) trees = (Tree.allNodes trees).flatMap (onLeaf leaf) ∧
      weaveList leaf (fun _ => []) trees = (Tree.allNodes trees).flatMap (onLeaf leaf) := by
  induction trees with
  | nil => exact ⟨rfl, rfl⟩
  | cons tree trees ih =>
    obtain ⟨first, rest⟩ := List.forall_mem_cons.mp h
    obtain ⟨all, list⟩ := ih rest
    simp [weaveAll, weaveList, Tree.allNodes, first, all, list]

/-- Where nothing is woven but the leaves, they stand in the order of the nodes. -/
theorem weave_leaves (leaf : LeafKind → String → List α) (tree : Tree) :
    weave leaf (fun _ => []) tree = tree.nodes.flatMap (onLeaf leaf) := by
  induction tree using Tree.induction with
  | leaf | newline | bare | foreign => simp [weave, Tree.nodes, onLeaf]
  | assignment name body location ih =>
    cases body with
    | nil => simp [weave, Tree.nodes, Tree.allNodes, onLeaf]
    | cons tree trees => simp [weave, Tree.nodes, onLeaf, (weaveAll_leaves ih).1]
  | call name params location ih => simp [weave, Tree.nodes, onLeaf, (weaveAll_leaves ih).2]
  | program body location ih => simp [weave, Tree.nodes, onLeaf, (weaveAll_leaves ih).1]

end Nodes

/-- The literals of a leaf. -/
def leafLiterals : LeafKind → String → List (List Char)
  | .string, text => [(Json.plainText text).toList]
  | _, _ => []

theorem quoted?_leafParts (kind : LeafKind) (text : String) :
    (leafParts kind text).filterMap Part.quoted? = leafLiterals kind text := by
  have marks : ∀ c, Part.quoted? (.code c) = none := fun _ => rfl
  cases kind with
  | number | boolean => exact found_code marks text.toList
  | string | comment => rfl
  | commentBlock =>
    rw [leafParts, found_lines marks]
    simp [Part.quoted?, leafLiterals]

theorem quoted?_weave (tree : Tree) :
    (weave leafParts charPart tree).filterMap Part.quoted? =
      tree.strings.map fun text => (Json.plainText text).toList := by
  rw [found_weave fun _ => rfl, weave_leaves, Tree.strings, List.map_filterMap,
    List.filterMap_eq_flatMap_toList]
  congr 1
  funext node
  cases node with
  | leaf kind text location =>
    rw [onLeaf, quoted?_leafParts]
    cases kind <;> rfl
  | _ => rfl

end JavaScript

open JavaScript

/-- Strings keep their texts. A text between delimiters gives one literal that stands for it and
holds neither a control character nor a quote without a backslash; and the literals that a scan of
generated code finds stand for the strings of the program, in their order. -/
theorem compile_keeps_strings (delimiter : Delimiter) (file : String) :
    (∀ (quote : Char) (text : String), delimiter.mark = .char quote → quote ∉ text.toList →
      ∃ inside, compile delimiter file (String.ofList (quote :: (text.toList ++ [quote]))) =
          .ok (String.ofList ('"' :: (inside ++ ['"']))) ∧
        Escaped inside ∧ (∀ c ∈ '"' :: (inside ++ ['"']), 0x20 ≤ c.toNat) ∧
        Denotes ('"' :: (inside ++ ['"'])) text) ∧
    ∀ source code, compile delimiter file source = .ok code →
      ∃ tree, parse delimiter file source = .ok tree ∧
        List.Forall₂ Denotes ((parts isFeed code.toList).filterMap Part.quoted?) tree.strings := by
  constructor
  · intro quote text mark closed
    have written : (Json.plainText text).toList =
        '"' :: (text.toList.flatMap Json.plainEscape ++ ['"']) := String.toList_ofList
    have item : Single .statement ⟨.string, String.ofList text.toList, .start file⟩
        (some (.leaf .string (String.ofList text.toList) (some (.start file)))) := .string rfl
    have compiled := compile_token (.string mark closed) item
    refine ⟨text.toList.flatMap Json.plainEscape, ?_, escaped_flatMap text.toList, ?_, ?_⟩
    · simpa [render, leafText, Json.plainText, Json.textChars] using compiled
    · rw [← written]
      exact plainText_visible text
    · rw [← written]
      exact denotes_plainText text
  · intro source code compiled
    obtain ⟨tree, parsed, rfl⟩ := exists_parse_of_compile compiled
    refine ⟨tree, parsed, ?_⟩
    rw [parts_of_parse rfl parsed tree.quiet_isFeed, quoted?_weave, List.forall₂_map_left_iff]
    exact List.forall₂_same.mpr fun text _ => denotes_plainText text

/-- Strings that end in a backslash or hold a quote and a line feed, and a quote in a comment. -/
theorem strings_behind_escapes_kept :
    compile .default "a.xo" "'\\'f('\"\n')//\"" = .ok "\"\\\\\"f(\"\\\"\\n\")//\"" ∧
    (parts isFeed "\"\\\\\"f(\"\\\"\\n\")//\"".toList).filterMap Part.quoted? =
      ["\"\\\\\"".toList, "\"\\\"\\n\"".toList] ∧
    List.Forall₂ Denotes ["\"\\\\\"".toList, "\"\\\"\\n\"".toList] ["\\", "\"\n"] ∧
    ∃ inside, compile .default "a.xo" (String.ofList ('\'' :: ("\\".toList ++ ['\'']))) =
        .ok (String.ofList ('"' :: (inside ++ ['"']))) ∧ Escaped inside ∧
      Denotes ('"' :: (inside ++ ['"'])) "\\" := by
  have compiled : compile .default "a.xo" "'\\'f('\"\n')//\"" =
      .ok "\"\\\\\"f(\"\\\"\\n\")//\"" := by cbv
  have found : (parts isFeed "\"\\\\\"f(\"\\\"\\n\")//\"".toList).filterMap Part.quoted? =
      ["\"\\\\\"".toList, "\"\\\"\\n\"".toList] := by decide
  obtain ⟨alone, every⟩ := compile_keeps_strings .default "a.xo"
  obtain ⟨tree, parsed, kept⟩ := every _ _ compiled
  obtain ⟨inside, single, escaped, -, denotes⟩ := alone '\'' "\\" rfl (by decide)
  have texts : (parse .default "a.xo" "'\\'f('\"\n')//\"").map Tree.strings =
      .ok ["\\", "\"\n"] := by cbv
  rw [parsed] at texts
  have strings : tree.strings = ["\\", "\"\n"] := Except.ok.inj texts
  rw [found, strings] at kept
  exact ⟨compiled, found, kept, inside, single, escaped, denotes⟩

end XoLang
