import XoLang.Proofs.Documents
import XoLang.Proofs.Parts
import XoLang.Text.Quoted

/-!
# Quoted text, read back

Between its quotes a text stands in printable characters only, so in one line. Every escape tells
where it ends, so that the characters can be read back one by one and no two texts are quoted alike.
-/

namespace XoLang.Text

/-- A character that is given by its number in hexadecimal digits, and what follows. -/
def readNumbered (width : Nat) (cs : List Char) : Option (Char × List Char) :=
  (hexNumber? 0 (cs.take width)).map fun n => (Char.ofNat n, cs.drop width)

/-- The first character between quotes, and what follows. -/
def readEscaped : List Char → Option (Char × List Char)
  | '\\' :: mark :: cs =>
    if mark = 'n' then some ('\n', cs)
    else if mark = 'r' then some ('\r', cs)
    else if mark = 't' then some ('\t', cs)
    else if mark = 'x' then readNumbered 2 cs
    else if mark = 'u' then readNumbered 4 cs
    else if mark = 'U' then readNumbered 8 cs
    else some (mark, cs)
  | c :: cs => some (c, cs)
  | [] => none

section Reading

variable {quote c : Char}

theorem readNumbered_hexDigits (width : Nat) {c : Char} (small : c.toNat < 16 ^ width)
    (rest : List Char) :
    readNumbered width (hexDigits width c.toNat ++ rest) = some (c, rest) := by
  have size := Json.length_hexDigits width c.toNat
  rw [readNumbered, List.take_left' size, List.drop_left' size,
    Json.hexNumber?_hexDigits width small, Option.map_some, Char.ofNat_toNat]

theorem readEscaped_visible (notEscape : c ≠ '\\') (rest : List Char) :
    readEscaped (c :: rest) = some (c, rest) := by
  rw [readEscaped.eq_def]
  split <;> simp_all

/-- The quotes that are in use. -/
theorem quoteFor_cases (text : List Char) : quoteFor text = '\'' ∨ quoteFor text = '"' := by
  rw [quoteFor]
  split_ifs
  · exact Or.inr rfl
  · exact Or.inl rfl

/-- A character is read back from its escape, whatever follows. -/
theorem readEscaped_escapedIn (known : quote = '\'' ∨ quote = '"') (c : Char) (rest : List Char) :
    readEscaped (escapedIn quote c ++ rest) = some (c, rest) := by
  have valid : c.toNat < 16 ^ 8 := c.val.toNat_lt
  rw [escapedIn]
  split_ifs with marked feed carriage tab printable byte unit
  · have mark : c = '\'' ∨ c = '"' ∨ c = '\\' := by
      rcases known with rfl | rfl
      · simp only [Bool.or_eq_true, decide_eq_true_eq] at marked
        tauto
      · simp only [Bool.or_eq_true, decide_eq_true_eq] at marked
        tauto
    rcases mark with rfl | rfl | rfl <;> rfl
  · rw [feed]
    rfl
  · rw [carriage]
    rfl
  · rw [tab]
    rfl
  · have notEscape : c ≠ '\\' := by
      rintro rfl
      simp at marked
    exact readEscaped_visible notEscape rest
  · exact readNumbered_hexDigits 2 byte rest
  · exact readNumbered_hexDigits 4 unit rest
  · exact readNumbered_hexDigits 8 valid rest

theorem escapedIn_ne_nil (quote c : Char) : escapedIn quote c ≠ [] := by
  rw [escapedIn]
  split_ifs <;> simp

theorem flatMap_escapedIn_inj (known : quote = '\'' ∨ quote = '"') {text other : List Char}
    (same : text.flatMap (escapedIn quote) = other.flatMap (escapedIn quote)) : text = other := by
  induction text generalizing other with
  | nil =>
    cases other with
    | nil => rfl
    | cons d other => simp [escapedIn_ne_nil] at same
  | cons c text ih =>
    cases other with
    | nil => simp [escapedIn_ne_nil] at same
    | cons d other =>
      have read := congrArg readEscaped same
      rw [List.flatMap_cons, List.flatMap_cons, readEscaped_escapedIn known,
        readEscaped_escapedIn known] at read
      obtain ⟨rfl, rest⟩ := Prod.mk.inj (Option.some.inj read)
      rw [ih rest]

/-- No two texts are quoted alike. -/
theorem quoted_inj {text other : String} (same : quoted text = quoted other) : text = other := by
  have chars : quotedChars text.toList = quotedChars other.toList := by
    simpa [quoted] using congrArg String.toList same
  simp only [quotedChars, List.cons.injEq] at chars
  obtain ⟨quotes, bodies⟩ := chars
  rw [quotes] at bodies
  have inner := List.append_cancel_right bodies
  exact String.toList_inj.mp (flatMap_escapedIn_inj (quoteFor_cases other.toList) inner)

theorem isPrintable_hexDigits (width n : Nat) : ∀ c ∈ hexDigits width n, isPrintable c = true := by
  induction width generalizing n with
  | zero => simp [hexDigits]
  | succ width ih =>
    have last : isPrintable (hexDigit n) = true :=
      JavaScript.hexDigit_of_small (p := fun c => isPrintable c = true) (by decide) n
    rw [hexDigits]
    exact List.forall_mem_append.mpr ⟨ih (n / 16), by simpa using last⟩

theorem isPrintable_quoteFor (text : List Char) : isPrintable (quoteFor text) = true := by
  rcases quoteFor_cases text with same | same
  · rw [same]
    decide
  · rw [same]
    decide

theorem isPrintable_escapedIn (mark : isPrintable quote = true) (c : Char) :
    ∀ d ∈ escapedIn quote c, isPrintable d = true := by
  have numbered : ∀ letter, isPrintable letter = true → ∀ width,
      ∀ d ∈ '\\' :: letter :: hexDigits width c.toNat, isPrintable d = true := by
    intro letter visible width
    simp only [List.forall_mem_cons]
    exact ⟨by decide, visible, isPrintable_hexDigits width c.toNat⟩
  rw [escapedIn]
  split_ifs with marked feed carriage tab printable byte unit
  · have visible : isPrintable c = true := by
      simp only [Bool.or_eq_true, decide_eq_true_eq] at marked
      rcases marked with rfl | rfl
      · exact mark
      · decide
    simpa using ⟨by decide, visible⟩
  · simp [isPrintable]
  · simp [isPrintable]
  · simp [isPrintable]
  · simpa using printable
  · exact numbered 'x' (by decide) 2
  · exact numbered 'u' (by decide) 4
  · exact numbered 'U' (by decide) 8

/-- Quoted text holds printable characters only. -/
theorem isPrintable_of_mem_quoted {text : String} {c : Char} (mem : c ∈ (quoted text).toList) :
    isPrintable c = true := by
  have mark := isPrintable_quoteFor text.toList
  rw [quoted, String.toList_ofList, quotedChars] at mem
  simp only [List.mem_cons, List.mem_append, List.mem_flatMap, List.not_mem_nil, or_false] at mem
  rcases mem with rfl | ⟨d, -, mem⟩ | rfl
  · exact mark
  · exact isPrintable_escapedIn mark d c mem
  · exact mark

end Reading

end XoLang.Text
