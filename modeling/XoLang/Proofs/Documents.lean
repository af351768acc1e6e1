import Mathlib.Algebra.Group.Nat.Defs
import Mathlib.Tactic.Common
import XoLang.Json.Reader
import XoLang.Json.Writer

/-!
# Texts that are JSON documents

The grammar of the format says which texts stand for a value. It leaves out numbers with a fraction
or an exponent, for which the writer has texts of its own; whatever is free of them is written as a
text of the grammar, on one line or on many.
-/

namespace XoLang.Json

/-- Blanks of the format and nothing else. -/
def Blank (cs : List Char) : Prop := ∀ c ∈ cs, isSpace c = true

/-- The digits of a number, without zeros in front. -/
inductive Digits : Nat → List Char → Prop
  | digit {n : Nat} (small : n < 10) : Digits n [n.digitChar]
  | behind {n d : Nat} {cs : List Char} (front : Digits n cs) (positive : 0 < n) (small : d < 10) :
      Digits (10 * n + d) (cs ++ [d.digitChar])

/-- The UTF-16 units of a character. -/
def units (c : Char) : List Nat :=
  if c.toNat < 0x10000 then [c.toNat]
  else [0xd800 + (c.toNat - 0x10000) / 0x400, 0xdc00 + (c.toNat - 0x10000) % 0x400]

/-- Characters between quotes, with the units that they stand for: characters as they are, escapes
of one letter and escapes of four hexadecimal digits. -/
inductive Quoted : List Nat → List Char → Prop
  | nil : Quoted [] []
  | plain {c : Char} {more : List Nat} {cs : List Char} (visible : 0x20 ≤ c.toNat)
      (notQuote : c ≠ '"') (notEscape : c ≠ '\\') (rest : Quoted more cs) :
      Quoted (units c ++ more) (c :: cs)
  | letter {e c : Char} {more : List Nat} {cs : List Char} (known : escapedChar? e = some c)
      (rest : Quoted more cs) : Quoted (c.toNat :: more) ('\\' :: e :: cs)
  | unit {n : Nat} {digits : List Char} {more : List Nat} {cs : List Char}
      (size : digits.length = 4) (value : Text.hexNumber? 0 digits = some n)
      (rest : Quoted more cs) : Quoted (n :: more) ('\\' :: 'u' :: (digits ++ cs))

/-- Elements with commas between them and blanks around each. -/
inductive Separated {α : Type} (element : α → List Char → Prop) : List α → List Char → Prop
  | last {a : α} {before cs after : List Char} (gap : Blank before) (h : element a cs)
      (finish : Blank after) : Separated element [a] (before ++ cs ++ after)
  | next {a : α} {more : List α} {before cs after rest : List Char} (gap : Blank before)
      (h : element a cs) (finish : Blank after) (others : Separated element more rest) :
      Separated element (a :: more) (before ++ cs ++ after ++ ',' :: rest)

/-- A name and a value with a colon between them. -/
inductive Member (value : Json → List Char → Prop) : String × Json → List Char → Prop
  | mk {name : String} {item : Json} {quoted before after cs : List Char}
      (named : Quoted (name.toList.flatMap units) quoted) (gap : Blank before)
      (finish : Blank after) (h : value item cs) :
      Member value (name, item) ('"' :: (quoted ++ '"' :: (before ++ ':' :: (after ++ cs))))

/-- The texts that stand for a value. -/
inductive Spells : Json → List Char → Prop
  | null : Spells .null "null".toList
  | yes : Spells (.bool true) "true".toList
  | no : Spells (.bool false) "false".toList
  | natural {n : Nat} {cs : List Char} (digits : Digits n cs) : Spells (.int n) cs
  | negative {n : Nat} {cs : List Char} (digits : Digits n cs) : Spells (.int (-n)) ('-' :: cs)
  | text {value : String} {cs : List Char} (quoted : Quoted (value.toList.flatMap units) cs) :
      Spells (.text value) ('"' :: (cs ++ ['"']))
  | noItems {gap : List Char} (blank : Blank gap) : Spells (.list []) ('[' :: (gap ++ [']']))
  | list {items : List Json} {cs : List Char} (inside : Separated Spells items cs) :
      Spells (.list items) ('[' :: (cs ++ [']']))
  | noFields {gap : List Char} (blank : Blank gap) :
      Spells (.object []) ('\x7b' :: (gap ++ ['\x7d']))
  | object {fields : List (String × Json)} {cs : List Char}
      (inside : Separated (Member Spells) fields cs) :
      Spells (.object fields) ('\x7b' :: (cs ++ ['\x7d']))

/-- A text that is one document: a value with nothing but blanks around it. -/
def IsDocument (value : Json) (text : String) : Prop :=
  ∃ before cs after, text.toList = before ++ cs ++ after ∧ Blank before ∧ Spells value cs ∧
    Blank after

/-- A value without floating-point numbers. -/
inductive Whole : Json → Prop
  | null : Whole .null
  | bool (value : Bool) : Whole (.bool value)
  | int (value : Int) : Whole (.int value)
  | text (value : String) : Whole (.text value)
  | list {items : List Json} (each : ∀ item ∈ items, Whole item) : Whole (.list items)
  | object {fields : List (String × Json)} (each : ∀ field ∈ fields, Whole field.2) :
      Whole (.object fields)

theorem blank_nil : Blank [] := by simp [Blank]

/-! Numbers and texts. -/

theorem digits_repr (n : Nat) : Digits n n.repr.toList := by
  induction n using Nat.strongRecOn with
  | ind n ih =>
    rw [Nat.toList_repr, Nat.toDigits_eq_if (by omega)]
    split_ifs with small
    · exact .digit small
    · have front := ih (n / 10) (by omega)
      rw [Nat.toList_repr] at front
      have whole := Digits.behind front (by omega) (Nat.mod_lt n (by omega))
      rwa [Nat.div_add_mod] at whole

theorem spells_int (n : Int) : Spells (.int n) (toString n).toList := by
  rw [Int.toString_eq_repr, Int.repr_eq_if]
  split_ifs with positive
  · have natural := Spells.natural (digits_repr n.toNat)
    rwa [Int.toNat_of_nonneg positive] at natural
  · have negative := Spells.negative (digits_repr (-n).toNat)
    rw [Int.toNat_of_nonneg (by omega), Int.neg_neg] at negative
    simpa using negative

theorem hexValue?_hexDigit (n : Nat) : Text.hexValue? (Text.hexDigit n) = some (n % 16) := by
  have each : ∀ d < 16,
      Text.hexValue? (if d < 10 then Char.ofNat (48 + d) else Char.ofNat (87 + d)) = some d := by
    decide
  exact each (n % 16) (Nat.mod_lt n (by omega))

theorem hexNumber?_concat (m : Nat) (cs : List Char) (c : Char) :
    Text.hexNumber? m (cs ++ [c]) =
      (Text.hexNumber? m cs).bind fun n => (Text.hexValue? c).map (16 * n + ·) := by
  induction cs generalizing m with
  | nil =>
    simp only [List.nil_append, Text.hexNumber?, Option.bind_some]
    cases Text.hexValue? c <;> rfl
  | cons d cs ih =>
    rw [List.cons_append, Text.hexNumber?, Text.hexNumber?]
    cases Text.hexValue? d with
    | none => rfl
    | some value => exact ih (16 * m + value)

theorem hexNumber?_hexDigits (width : Nat) {n : Nat} (small : n < 16 ^ width) :
    Text.hexNumber? 0 (Text.hexDigits width n) = some n := by
  induction width generalizing n with
  | zero =>
    obtain rfl : n = 0 := by omega
    rfl
  | succ width ih =>
    have front : n / 16 < 16 ^ width := by
      rw [Nat.pow_succ] at small
      omega
    rw [Text.hexDigits, hexNumber?_concat, ih front, hexValue?_hexDigit]
    exact congrArg some (Nat.div_add_mod n 16)

theorem length_hexDigits (width n : Nat) : (Text.hexDigits width n).length = width := by
  induction width generalizing n with
  | zero => rfl
  | succ width ih => rw [Text.hexDigits, List.length_append, ih, List.length_singleton]

theorem Quoted.unitEscape {n : Nat} {more : List Nat} {cs : List Char} (small : n < 0x10000)
    (rest : Quoted more cs) : Quoted (n :: more) (unitEscape n ++ cs) :=
  .unit (length_hexDigits 4 n) (hexNumber?_hexDigits 4 small) rest

theorem escapedChar?_of_shortEscape? {c e : Char} (h : shortEscape? c = some e) :
    escapedChar? e = some c ∧ c.toNat < 0x10000 := by
  rw [shortEscape?] at h
  split_ifs at h with quote backslash feed carriage tab form back <;> cases h
  · subst quote
    decide
  · subst backslash
    decide
  · subst feed
    decide
  · subst carriage
    decide
  · subst tab
    decide
  · rw [← Char.ofNat_toNat c, form]
    decide
  · rw [← Char.ofNat_toNat c, back]
    decide

theorem ne_of_shortEscape? {c : Char} (h : shortEscape? c = none) : c ≠ '"' ∧ c ≠ '\\' := by
  constructor
  · rintro rfl
    cases h
  · rintro rfl
    cases h

/-- A character is written as its units say. -/
theorem Quoted.asciiEscape (c : Char) {more : List Nat} {cs : List Char}
    (rest : Quoted more cs) : Quoted (units c ++ more) (asciiEscape c ++ cs) := by
  have bound : c.toNat < 0x110000 := by
    rcases c.valid with low | high
    · exact Nat.lt_trans low (by decide)
    · exact high.2
  rw [Json.asciiEscape]
  cases short : shortEscape? c with
  | some e =>
    obtain ⟨known, small⟩ := escapedChar?_of_shortEscape? short
    rw [units, if_pos small]
    exact .letter known rest
  | none =>
    obtain ⟨notQuote, notEscape⟩ := ne_of_shortEscape? short
    simp only [Bool.and_eq_true, decide_eq_true_eq]
    split_ifs with visible small
    · exact .plain visible.1 notQuote notEscape rest
    · rw [units, if_pos small]
      exact rest.unitEscape small
    · rw [units, if_neg small, List.append_assoc]
      exact (rest.unitEscape (by omega)).unitEscape (by omega)

theorem quoted_flatMap (text : List Char) :
    Quoted (text.flatMap units) (text.flatMap asciiEscape) := by
  induction text with
  | nil => exact .nil
  | cons c text ih => exact ih.asciiEscape c

theorem spells_text (value : String) : Spells (.text value) (asciiText value).toList := by
  rw [asciiText, String.toList_ofList]
  exact .text (quoted_flatMap value.toList)

theorem member_of_spells (field : String × Json) {written : String}
    (h : Spells field.2 written.toList) :
    Member Spells field (asciiText field.1 ++ ": " ++ written).toList := by
  have gap : Blank [' '] := by simp [Blank, isSpace]
  have member := Member.mk (quoted_flatMap field.1.toList) blank_nil gap h
  simpa [asciiText, textChars] using member

/-! Lists and objects. -/

theorem writeItems_eq_map {τ : Type} (quoted : τ → String) (indent : Option Int) (depth : Nat)
    (items : List (Json τ)) :
    writeItems quoted indent depth items = items.map (writeAt quoted indent depth) := by
  induction items with
  | nil => rfl
  | cons item items ih => rw [writeItems, ih, List.map_cons]

theorem writeFields_eq_map {τ : Type} (quoted : τ → String) (indent : Option Int) (depth : Nat)
    (fields : List (τ × Json τ)) :
    writeFields quoted indent depth fields =
      fields.map fun field => quoted field.1 ++ ": " ++ writeAt quoted indent depth field.2 := by
  induction fields with
  | nil => rfl
  | cons field fields ih =>
    obtain ⟨name, value⟩ := field
    rw [writeFields, ih, List.map_cons]

section Enclosing

variable {α : Type} {element : α → List Char → Prop} {write : α → String}

theorem blank_itemBreak (indent : Option Int) (depth : Nat) :
    Blank (itemBreak indent depth).toList := by
  cases indent with
  | none => simp [itemBreak, Blank]
  | some n =>
    intro c mem
    simp only [itemBreak, Text.blanks, String.toList_append, String.toList_ofList,
      List.mem_append, List.mem_replicate] at mem
    rcases mem with mem | ⟨-, rfl⟩
    · obtain rfl : c = '\n' := by simpa using mem
      rfl
    · rfl

theorem exists_itemComma (indent : Option Int) (depth : Nat) :
    ∃ gap, (itemComma indent depth).toList = ',' :: gap ∧ Blank gap := by
  cases indent with
  | none => exact ⟨[' '], by simp [itemComma], by simp [Blank, isSpace]⟩
  | some n =>
    refine ⟨(itemBreak (some n) depth).toList, ?_, blank_itemBreak (some n) depth⟩
    simp [itemComma]

/-- Written elements with a comma and a gap between each two. -/
theorem separated_join {separator : String} {gap before after : List Char}
    (comma : separator.toList = ',' :: gap) (blank : Blank gap) (start : Blank before)
    (finish : Blank after) (a : α) (more : List α)
    (each : ∀ b ∈ a :: more, element b (write b).toList) :
    Separated element (a :: more)
      (before ++ (Text.join separator ((a :: more).map write)).toList ++ after) := by
  induction more generalizing a before with
  | nil => exact .last start (each a (by simp)) finish
  | cons b more ih =>
    obtain ⟨first, others⟩ := List.forall_mem_cons.mp each
    have rest := ih blank b others
    have joined := Separated.next start first blank_nil rest
    simpa [Text.join, comma] using joined

theorem separated_enclose {a : α} {more : List α} (indent : Option Int) (depth : Nat)
    (opening closing : String) (each : ∀ b ∈ a :: more, element b (write b).toList) :
    ∃ cs, (enclose indent depth opening closing ((a :: more).map write)).toList =
        opening.toList ++ cs ++ closing.toList ∧ Separated element (a :: more) cs := by
  obtain ⟨gap, comma, blank⟩ := exists_itemComma indent (depth + 1)
  have inside := separated_join comma blank (blank_itemBreak indent (depth + 1))
    (blank_itemBreak indent depth) a more each
  refine ⟨_, ?_, inside⟩
  simp [enclose]

end Enclosing

/-- Writing gives a text that stands for the value. -/
theorem Whole.spells {value : Json} (whole : Whole value) (indent : Option Int) (depth : Nat) :
    Spells value (writeAt asciiText indent depth value).toList := by
  induction whole generalizing depth with
  | null => exact .null
  | bool value =>
    cases value with
    | false => exact .no
    | true => exact .yes
  | int value => exact spells_int value
  | text value => exact spells_text value
  | @list items each ih =>
    rw [writeAt, writeItems_eq_map]
    cases items with
    | nil => simpa [enclose] using Spells.noItems blank_nil
    | cons item more =>
      obtain ⟨cs, same, inside⟩ := separated_enclose indent depth "[" "]"
        fun b mem => ih b mem (depth + 1)
      rw [same]
      exact .list inside
  | @object fields each ih =>
    rw [writeAt, writeFields_eq_map]
    cases fields with
    | nil => simpa [enclose] using Spells.noFields blank_nil
    | cons field more =>
      obtain ⟨cs, same, inside⟩ := separated_enclose indent depth "\x7b" "\x7d"
        fun b mem => member_of_spells b (ih b mem (depth + 1))
      rw [same]
      exact .object inside

/-- What is written on a line of its own is one document. -/
theorem Whole.isDocument {value : Json} (whole : Whole value) (indent : Option Int) :
    IsDocument value (write indent value ++ "\n") := by
  refine ⟨[], _, ['\n'], ?_, blank_nil, whole.spells indent 0, by simp [Blank, isSpace]⟩
  simp [write]

end XoLang.Json
