import XoLang.Token.Lexer

/-!
# Places of cursors

A cursor that started in front of a source stands between two parts of it, and its line and column
follow from the part in front. The steps of reading are stated for such cursors, so that what is
proved about them speaks of the two parts only.
-/

namespace XoLang

/-- The place behind some characters: one line more than they have line feeds, one column more than
stand behind the last of these. -/
def placeAfter (file : String) (before : List Char) : Location where
  line := (1 + before.count '\n' : Nat)
  column := (1 + (before.reverse.takeWhile (· != '\n')).length : Nat)
  file := file

/-- One place comes before another in a source. -/
def Location.Before (a b : Location) : Prop :=
  a.line < b.line ∨ (a.line = b.line ∧ a.column < b.column)

/-- Every character moves the place on. -/
theorem placeAfter_before (file : String) (front : List Char) {used : List Char}
    (nonempty : used ≠ []) :
    (placeAfter file front).Before (placeAfter file (front ++ used)) := by
  have positive : 0 < used.length := List.length_pos_iff.mpr nonempty
  simp only [Location.Before, placeAfter, List.count_append, List.reverse_append]
  by_cases feed : '\n' ∈ used
  · left
    have counted : 0 < used.count '\n' := List.count_pos_iff.mpr feed
    omega
  · right
    have counted : used.count '\n' = 0 := List.count_eq_zero.mpr feed
    have run : ∀ c ∈ used.reverse, (c != '\n') = true := by
      intro c mem
      simp only [bne_iff_ne, ne_eq]
      rintro rfl
      exact feed (List.mem_reverse.mp mem)
    rw [List.takeWhile_append_of_pos run, List.length_append, List.length_reverse]
    omega

theorem Scan.result_add_eq_ok_iff {token : Token} {scan : Scan} {tokens : List Token} :
    (scan.add token).result = .ok tokens ↔
      ∃ more, scan.result = .ok more ∧ token :: more = tokens := by
  cases h : scan.result <;> simp [add, h, Except.map]

namespace Cursor

/-- The cursor between two parts of a source. -/
def between (before rest : List Char) : Cursor where
  passed := before.reverse
  rest := rest
  line := 1 + before.count '\n'
  column := 1 + (before.reverse.takeWhile (· != '\n')).length

theorem ofSource_eq_between (source : String) : ofSource source = between [] source.toList := rfl

@[simp] theorem rest_between (before rest : List Char) : (between before rest).rest = rest := rfl

@[simp] theorem location_between (file : String) (before rest : List Char) :
    (between before rest).location file = placeAfter file before := rfl

theorem pass_between (before rest : List Char) (c : Char) :
    (between before (c :: rest)).pass c rest = between (before ++ [c]) rest := by
  by_cases h : c = '\n'
  · subst h
    simp [pass, between, Nat.add_assoc]
  · simp [pass, between, h, Nat.add_comm]

/-- Passing a part of what is left moves it to the front. -/
theorem forward_between (before used rest : List Char) :
    (between before (used ++ rest)).forward used.length = between (before ++ used) rest := by
  induction used generalizing before with
  | nil => simp [forward]
  | cons c used ih =>
    have step : (between before (c :: used ++ rest)).forward (c :: used).length =
        ((between before (c :: (used ++ rest))).pass c (used ++ rest)).forward used.length := rfl
    rw [step, pass_between, ih]
    simp

section Steps

variable {delimiter : Delimiter} {file : String} {before : List Char} {c : Char} {cs : List Char}

theorem scan_end : (between before []).scan delimiter file = ⟨.ok [], between before []⟩ := by
  rw [scan]
  rfl

theorem scan_gap (h : lexeme delimiter c cs = .gap) :
    (between before (c :: cs)).scan delimiter file =
      (between (before ++ [c]) cs).scan delimiter file := by
  have moved : (between before (c :: cs)).forward 1 = between (before ++ [c]) cs :=
    forward_between before [c] cs
  rw [scan]
  simp only [rest_between, h, moved]

theorem scan_token {kind : TokenKind} {text raw rest : List Char}
    (split : c :: cs = raw ++ rest) (nonempty : raw ≠ [])
    (h : lexeme delimiter c cs = .token kind text raw.length) :
    (between before (c :: cs)).scan delimiter file =
      ((between (before ++ raw) rest).scan delimiter file).add
        ⟨kind, String.ofList text, placeAfter file before⟩ := by
  have size : raw.length - 1 + 1 = raw.length :=
    Nat.sub_add_cancel (List.length_pos_iff.mpr nonempty)
  have moved : (between before (c :: cs)).forward raw.length = between (before ++ raw) rest := by
    rw [split]
    exact forward_between before raw rest
  rw [scan]
  simp only [rest_between, h, size, moved, location_between]

theorem scan_failed {fault : LexFault} {size : Nat}
    (h : lexeme delimiter c cs = .failed fault size) :
    (between before (c :: cs)).scan delimiter file =
      ⟨.error ⟨fault, placeAfter file before⟩, (between before (c :: cs)).forward size⟩ := by
  rw [scan]
  simp only [rest_between, h, location_between]

end Steps

end Cursor

end XoLang
