import Mathlib.Tactic.Common
import XoLang.Json.Writer
import XoLang.Proofs.Runs

/-!
# Parts of a JavaScript text

A scan of a text from left to right finds strings between double quotes, in which a backslash
escapes the next character, and comments behind two slashes. Which characters end a comment is left
open. Deleting parts of some kind from a text is deleting them from what the scan finds.
-/

namespace XoLang.JavaScript

/-- A part of a text: a string with its quotes, the text of a comment behind its slashes, or any
other character. -/
inductive Part where
  | code (c : Char)
  | quoted (raw : List Char)
  | comment (text : List Char)
  deriving DecidableEq, Repr

namespace Part

/-- The characters of a part as they stand in the text. -/
def chars : Part → List Char
  | .code c => [c]
  | .quoted raw => raw
  | .comment text => '/' :: '/' :: text

def isComment : Part → Bool
  | .comment _ => true
  | _ => false

/-- A space or a line feed outside of strings and comments. -/
def isBlank : Part → Bool
  | .code c => c = ' ' || c = '\n'
  | _ => false

end Part

/-- What a scan stands in, with the characters of it that have been passed, the last one first. -/
inductive ScanState where
  | code
  | quoted (passed : List Char)
  | comment (passed : List Char)
  deriving DecidableEq, Repr

/-- The parts that a scan finds; `ends` says which characters end a comment. A string or a comment
may stay open at the end. -/
def partsFrom (ends : Char → Bool) : ScanState → List Char → List Part
  | .code, [] => []
  | .quoted passed, [] => [.quoted passed.reverse]
  | .comment passed, [] => [.comment passed.reverse]
  | .code, '/' :: '/' :: cs => partsFrom ends (.comment []) cs
  | .code, '"' :: cs => partsFrom ends (.quoted ['"']) cs
  | .code, c :: cs => .code c :: partsFrom ends .code cs
  | .quoted passed, '\\' :: c :: cs => partsFrom ends (.quoted (c :: '\\' :: passed)) cs
  | .quoted passed, '"' :: cs => .quoted ('"' :: passed).reverse :: partsFrom ends .code cs
  | .quoted passed, c :: cs => partsFrom ends (.quoted (c :: passed)) cs
  | .comment passed, c :: cs =>
    if ends c then .comment passed.reverse :: .code c :: partsFrom ends .code cs
    else partsFrom ends (.comment (c :: passed)) cs

/-- The parts of a text. -/
def parts (ends : Char → Bool) (text : List Char) : List Part := partsFrom ends .code text

/-- The characters of the parts for which `dropped` does not hold. -/
def without (dropped : Part → Bool) (found : List Part) : List Char :=
  found.flatMap fun part => if dropped part then [] else part.chars

/-- A text without the parts for which `dropped` holds. -/
def erase (ends : Char → Bool) (dropped : Part → Bool) (text : List Char) : List Char :=
  without dropped (parts ends text)

/-- The line feed alone. -/
def isFeed (c : Char) : Bool := c = '\n'

/-- The line terminators of JavaScript: line feed, carriage return, line separator and paragraph
separator. -/
def isTerminator (c : Char) : Bool := c = '\n' || c = '\r' || c = '\u2028' || c = '\u2029'

/-! What the scan finds. -/

section Scanning

variable {ends : Char → Bool} {rest : List Char}

/-- Characters that open neither a string nor a comment. -/
def Inert (run : List Char) : Prop := ∀ c ∈ run, c ≠ '/' ∧ c ≠ '"'

theorem partsFrom_code {c : Char} (notSlashes : ∀ more, c = '/' → rest = '/' :: more → False)
    (notQuote : c = '"' → False) :
    partsFrom ends .code (c :: rest) = .code c :: partsFrom ends .code rest := by
  rw [partsFrom.eq_def]
  split <;> simp_all

theorem partsFrom_inside {c : Char} (notEscape : ∀ d more, c = '\\' → rest = d :: more → False)
    (notQuote : c = '"' → False) (passed : List Char) :
    partsFrom ends (.quoted passed) (c :: rest) = partsFrom ends (.quoted (c :: passed)) rest := by
  rw [partsFrom.eq_def]
  split <;> simp_all

theorem parts_code {c : Char} (h : c ≠ '/' ∧ c ≠ '"') (rest : List Char) :
    parts ends (c :: rest) = .code c :: parts ends rest :=
  partsFrom_code (fun _ isSlash _ => h.1 isSlash) h.2

theorem parts_inert {run : List Char} (h : Inert run) (rest : List Char) :
    parts ends (run ++ rest) = run.map .code ++ parts ends rest := by
  induction run with
  | nil => rfl
  | cons c run ih =>
    obtain ⟨first, more⟩ := List.forall_mem_cons.mp h
    rw [List.cons_append, parts_code first, ih more]
    rfl

/-- The inside of a string: every quote and every backslash stands behind a backslash. -/
inductive Escaped : List Char → Prop
  | nil : Escaped []
  | char {c : Char} {cs : List Char} (notQuote : c ≠ '"') (notBackslash : c ≠ '\\')
      (rest : Escaped cs) : Escaped (c :: cs)
  | pair {c : Char} {cs : List Char} (rest : Escaped cs) : Escaped ('\\' :: c :: cs)

theorem Escaped.append {body more : List Char} (h : Escaped body) (next : Escaped more) :
    Escaped (body ++ more) := by
  induction h with
  | nil => exact next
  | char notQuote notBackslash _ ih => exact .char notQuote notBackslash ih
  | pair _ ih => exact .pair ih

theorem partsFrom_quoted {body : List Char} (h : Escaped body) (passed rest : List Char) :
    partsFrom ends (.quoted passed) (body ++ '"' :: rest) =
      .quoted (passed.reverse ++ body ++ ['"']) :: parts ends rest := by
  induction h generalizing passed with
  | nil => simp [partsFrom, parts]
  | @char c cs notQuote notBackslash _ ih =>
    rw [List.cons_append, partsFrom_inside (fun _ _ escape _ => notBackslash escape) notQuote, ih]
    simp
  | @pair c cs _ ih =>
    rw [List.cons_append, List.cons_append, partsFrom, ih]
    simp

theorem parts_quoted {body : List Char} (h : Escaped body) (rest : List Char) :
    parts ends ('"' :: (body ++ '"' :: rest)) =
      .quoted ('"' :: (body ++ ['"'])) :: parts ends rest := by
  rw [parts, partsFrom, partsFrom_quoted h]
  rfl

/-- What holds of the sixteen digits holds of the digit for any number. -/
theorem hexDigit_of_small {p : Char → Prop} (small : ∀ d < 16, p (Text.hexDigit d)) (n : Nat) :
    p (Text.hexDigit n) := by
  have same : Text.hexDigit n = Text.hexDigit (n % 16) := by simp [Text.hexDigit]
  rw [same]
  exact small (n % 16) (Nat.mod_lt n (by decide))

theorem hexDigit_plain (n : Nat) : Text.hexDigit n ≠ '"' ∧ Text.hexDigit n ≠ '\\' :=
  hexDigit_of_small (p := fun c => c ≠ '"' ∧ c ≠ '\\') (by decide) n

theorem escaped_hexDigits (width n : Nat) : Escaped (Text.hexDigits width n) := by
  induction width generalizing n with
  | zero => exact .nil
  | succ width ih =>
    obtain ⟨notQuote, notBackslash⟩ := hexDigit_plain n
    exact (ih (n / 16)).append (.char notQuote notBackslash .nil)

theorem escaped_plainEscape (c : Char) : Escaped (Json.plainEscape c) := by
  rw [Json.plainEscape]
  cases short : Json.shortEscape? c with
  | some e => exact .pair .nil
  | none =>
    have notQuote : c ≠ '"' := by
      rintro rfl
      exact absurd short (by decide)
    have notBackslash : c ≠ '\\' := by
      rintro rfl
      exact absurd short (by decide)
    simp only
    split_ifs
    · exact .pair (escaped_hexDigits 4 c.toNat)
    · exact .char notQuote notBackslash .nil

theorem escaped_flatMap (text : List Char) : Escaped (text.flatMap Json.plainEscape) := by
  induction text with
  | nil => exact .nil
  | cons c text ih => exact (escaped_plainEscape c).append ih

/-- A string that is written by its escapes is one part. -/
theorem parts_plainText (text : String) (rest : List Char) :
    parts ends ((Json.plainText text).toList ++ rest) =
      .quoted (Json.plainText text).toList :: parts ends rest := by
  rw [Json.plainText, String.toList_ofList, Json.textChars, List.cons_append, List.append_assoc,
    List.singleton_append, parts_quoted (escaped_flatMap text.toList)]

theorem hexDigit_visible (n : Nat) : 0x20 ≤ (Text.hexDigit n).toNat :=
  hexDigit_of_small (p := fun c => 0x20 ≤ c.toNat) (by decide) n

theorem hexDigits_visible (width n : Nat) : ∀ c ∈ Text.hexDigits width n, 0x20 ≤ c.toNat := by
  induction width generalizing n with
  | zero => simp [Text.hexDigits]
  | succ width ih =>
    rw [Text.hexDigits]
    exact List.forall_mem_append.mpr ⟨ih (n / 16), by simpa using hexDigit_visible n⟩

theorem plainEscape_visible (c : Char) : ∀ d ∈ Json.plainEscape c, 0x20 ≤ d.toNat := by
  rw [Json.plainEscape]
  cases short : Json.shortEscape? c with
  | some e =>
    have visible : 0x20 ≤ e.toNat := by
      rw [Json.shortEscape?] at short
      split_ifs at short <;> cases short <;> decide
    exact List.forall_mem_cons.mpr ⟨by decide, by simpa using visible⟩
  | none =>
    simp only
    split_ifs with control
    · exact List.forall_mem_cons.mpr ⟨by decide,
        List.forall_mem_cons.mpr ⟨by decide, hexDigits_visible 4 c.toNat⟩⟩
    · simpa using control

/-- A string is written without control characters. -/
theorem plainText_visible (text : String) :
    ∀ c ∈ (Json.plainText text).toList, 0x20 ≤ c.toNat := by
  intro c mem
  rw [Json.plainText, String.toList_ofList, Json.textChars, List.mem_cons, List.mem_append,
    List.mem_flatMap, List.mem_singleton] at mem
  rcases mem with rfl | ⟨d, -, escaped⟩ | rfl
  · decide
  · exact plainEscape_visible d c escaped
  · decide

theorem partsFrom_comment (feed : ends '\n' = true) {text : List Char}
    (quiet : ∀ c ∈ text, ends c = false) (stop : StopsAt (· != '\n') rest) (passed : List Char) :
    partsFrom ends (.comment passed) (text ++ rest) =
      .comment (passed.reverse ++ text) :: parts ends rest := by
  induction text generalizing passed with
  | nil =>
    cases rest with
    | nil => simp [partsFrom, parts]
    | cons c rest =>
      obtain rfl : c = '\n' := by simpa using stop c rest rfl
      rw [parts_code (by decide)]
      simp [partsFrom, parts, feed]
  | cons c text ih =>
    obtain ⟨first, more⟩ := List.forall_mem_cons.mp quiet
    rw [List.cons_append, partsFrom, if_neg (by simp [first]), ih more]
    simp

theorem parts_comment (feed : ends '\n' = true) {text : List Char}
    (quiet : ∀ c ∈ text, ends c = false) (stop : StopsAt (· != '\n') rest) :
    parts ends ('/' :: '/' :: (text ++ rest)) = .comment text :: parts ends rest := by
  rw [parts, partsFrom, partsFrom_comment feed quiet stop]
  rfl

end Scanning

/-! Two scans that differ in what ends a comment. -/

section Terminators

variable {ends ends' : Char → Bool}

/-- Behind the rest of a comment comes a character that ends it, if anything does. -/
theorem head_behind_comment (passed cs : List Char) :
    ∀ c ∈ (without Part.isComment (partsFrom ends (.comment passed) cs)).head?, ends c = true := by
  induction cs generalizing passed with
  | nil => simp [partsFrom, without, Part.isComment]
  | cons d cs ih =>
    rw [partsFrom]
    split_ifs with ended
    · rintro c ⟨rfl⟩
      exact ended
    · exact ih (d :: passed)

/-- If more characters end a comment and the text outside of comments is still the same, then none
of them stands in a comment. -/
theorem not_ends_of_without_eq (wider : ∀ c, ends c = true → ends' c = true) (state : ScanState)
    (text : List Char) (clean : ∀ passed, state = .comment passed → ∀ c ∈ passed, ends' c = false)
    (same : without Part.isComment (partsFrom ends' state text) =
      without Part.isComment (partsFrom ends state text)) :
    ∀ comment, .comment comment ∈ partsFrom ends state text → ∀ c ∈ comment, ends' c = false := by
  fun_induction partsFrom ends state text with
  | case1 => simp
  | case2 passed => simp
  | case3 passed =>
    intro comment mem c inside
    obtain rfl : comment = passed.reverse := by simpa using mem
    exact clean passed rfl c (List.mem_reverse.mp inside)
  | case4 cs ih =>
    rw [partsFrom] at same
    exact ih (by simp) same
  | case5 cs ih =>
    rw [partsFrom] at same
    exact ih (by simp) same
  | case6 c cs notSlashes notQuote ih =>
    rw [partsFrom_code notSlashes notQuote] at same
    have rest := List.cons.inj same
    intro comment mem
    exact ih (by simp) rest.2 comment (by simpa using mem)
  | case7 passed c cs ih =>
    rw [partsFrom] at same
    exact ih (by simp) same
  | case8 passed cs ih =>
    rw [partsFrom] at same
    have rest := List.append_cancel_left (show ('"' :: passed).reverse ++ _ = _ ++ _ from same)
    intro comment mem
    exact ih (by simp) rest comment (by simpa using mem)
  | case9 passed c cs notEscape notQuote ih =>
    rw [partsFrom_inside notEscape notQuote] at same
    exact ih (by simp) same
  | case10 passed c cs ended ih =>
    rw [partsFrom, if_pos (wider c ended)] at same
    have rest := List.cons.inj same
    intro comment mem
    simp only [List.mem_cons, Part.comment.injEq, reduceCtorEq, false_or] at mem
    rcases mem with rfl | mem
    · exact fun d inside => clean passed rfl d (List.mem_reverse.mp inside)
    · exact ih (by simp) rest.2 comment mem
  | case11 passed c cs notEnded ih =>
    rw [partsFrom] at same
    by_cases ended : ends' c = true
    · -- One text goes on with `c`, the other with what ends the comment.
      rw [if_pos ended] at same
      have starts : (without Part.isComment (partsFrom ends (.comment (c :: passed)) cs)).head? =
          some c := by
        rw [← same]
        rfl
      exact absurd (head_behind_comment (c :: passed) cs c starts) notEnded
    · rw [if_neg ended] at same
      refine ih ?_ same
      rintro _ ⟨rfl⟩
      exact List.forall_mem_cons.mpr ⟨by simpa using ended, clean passed rfl⟩

end Terminators

end XoLang.JavaScript
