import XoLang.Proofs.Calls
import XoLang.Proofs.LexicalFaults
import XoLang.Token.Session

/-!
# Sessions with a cursor

However a cursor is driven, and whether a step fails or not, it stands between two parts of its
source, its line and column follow from the part in front, and it never goes back. Every step moves
a part of what is left to the front; what that part is follows from the reader that was called.
-/

namespace XoLang

/-- A cursor stands at its place in a source. -/
structure Cursor.Tracks (source : List Char) (cursor : Cursor) : Prop where
  inside : cursor.pos ≤ source.length
  passed : cursor.passed.reverse = source.take cursor.pos
  rest : cursor.rest = source.drop cursor.pos
  line : cursor.line = 1 + (source.take cursor.pos).count '\n'
  column : cursor.column =
    1 + ((source.take cursor.pos).reverse.takeWhile (· != '\n')).length

/-- The steps that only look. -/
def CursorStep.isLook : CursorStep → Bool
  | .peek | .lookAt _ | .atEnd | .location => true
  | _ => false

/-- What is said of every call in a session over a source. -/
structure CursorCall (delimiter : Delimiter) (file : String) (source : List Char)
    (call : Call Cursor CursorStep CursorAnswer) : Prop where
  tracks : call.after.Tracks source
  forward : call.before.pos ≤ call.after.pos
  look : call.step.isLook = true → call.after = call.before
  token : ∀ t, call.answer = .token t → t.location = call.before.location file
  /-- The cursor stays on a character that is unexpected, and to go on finds it again. -/
  unexpected : ∀ e c, call.answer = .failed e → e.fault = .unexpected c →
    source[call.after.pos]? = some c ∧ e.location = call.after.location file ∧
      call.after.perform delimiter file .tokenize = (.failed e, call.after)
  unclosed : ∀ e, call.answer = .failed e → e.fault = .openString ∨ e.fault = .openComment →
    call.after.pos = source.length

namespace Cursor

/-! Places. -/

theorem pos_between (before rest : List Char) : (between before rest).pos = before.length := by
  simp [pos, between]

theorem tracks_between (before rest : List Char) :
    (between before rest).Tracks (before ++ rest) := by
  have front : (before ++ rest).take (between before rest).pos = before := by
    rw [pos_between, List.take_left]
  constructor
  · rw [pos_between, List.length_append]
    omega
  · rw [front, between, List.reverse_reverse]
  · rw [pos_between, List.drop_left, rest_between]
  · rw [front, between]
  · rw [front, between]

/-- A cursor at its place stands between the two parts of the source. -/
theorem Tracks.eq_between {source : List Char} {cursor : Cursor} (h : cursor.Tracks source) :
    ∃ before rest, source = before ++ rest ∧ cursor = between before rest := by
  refine ⟨source.take cursor.pos, source.drop cursor.pos, (List.take_append_drop _ _).symm, ?_⟩
  obtain ⟨-, passed, rest, line, column⟩ := h
  have reversed : cursor.passed = (source.take cursor.pos).reverse := by
    rw [← passed, List.reverse_reverse]
  rw [between, ← reversed, ← rest, ← line, reversed, ← column, ← reversed]

/-- Whatever number of characters is passed, they move to the front. -/
theorem forward_eq_between (n : Nat) (before rest : List Char) :
    (between before rest).forward n = between (before ++ rest.take n) (rest.drop n) := by
  induction n generalizing before rest with
  | zero => simp [forward]
  | succ n ih =>
    cases rest with
    | nil => simp [forward]
    | cons c rest =>
      have step : (between before (c :: rest)).forward (n + 1) =
          ((between before (c :: rest)).pass c rest).forward n := rfl
      rw [step, pass_between, ih]
      simp

end Cursor

/-! Scans. -/

/-- Where a scan from between `before` and `rest` can end: behind all, on an unexpected character,
or behind a string or a comment that was not closed. -/
inductive ScanEnds (delimiter : Delimiter) (file : String) (before rest : List Char) : Scan → Prop
  | done {tokens : List Token} :
      ScanEnds delimiter file before rest ⟨.ok tokens, .between (before ++ rest) []⟩
  | unexpected {used cs : List Char} {c : Char} (split : rest = used ++ c :: cs)
      (found : Unexpected delimiter c cs) :
      ScanEnds delimiter file before rest
        ⟨.error ⟨.unexpected c, placeAfter file (before ++ used)⟩,
          .between (before ++ used) (c :: cs)⟩
  | unclosed {fault : LexFault} {location : Location} (other : ∀ c, fault ≠ .unexpected c) :
      ScanEnds delimiter file before rest
        ⟨.error ⟨fault, location⟩, .between (before ++ rest) []⟩

section Scans

variable {delimiter : Delimiter} {file : String} {before rest : List Char}

/-- A scan behind some characters ends where it ends behind these in the whole. -/
theorem ScanEnds.behind {used : List Char} {scan : Scan}
    (h : ScanEnds delimiter file (before ++ used) rest scan) :
    ScanEnds delimiter file before (used ++ rest) scan := by
  cases h with
  | done =>
    rw [List.append_assoc]
    exact .done
  | @unexpected more cs c split found =>
    rw [List.append_assoc]
    exact .unexpected (by rw [split, List.append_assoc]) found
  | unclosed other =>
    rw [List.append_assoc]
    exact .unclosed other

theorem ScanEnds.add {scan : Scan} (h : ScanEnds delimiter file before rest scan) (t : Token) :
    ScanEnds delimiter file before rest (scan.add t) := by
  cases h with
  | done => exact .done
  | unexpected split found => exact .unexpected split found
  | unclosed other => exact .unclosed other

theorem scan_ends (delimiter : Delimiter) (file : String) (before rest : List Char) :
    ScanEnds delimiter file before rest ((Cursor.between before rest).scan delimiter file) := by
  induction rest using lexemes_induction delimiter generalizing before with
  | nil =>
    have ended : ScanEnds delimiter file before [] ⟨.ok [], .between (before ++ []) []⟩ := .done
    rw [List.append_nil] at ended
    rw [Cursor.scan_end]
    exact ended
  | gap c cs blank ih =>
    rw [Cursor.scan_gap (lexeme_eq_gap_iff.mpr blank)]
    exact (ih (before ++ [c])).behind
  | token kind text raw after spelled ih =>
    rw [scan_of_spelled spelled]
    exact (ih (before ++ raw)).behind.add _
  | failed c cs fault size read =>
    rw [Cursor.scan_failed read, Cursor.forward_eq_between]
    rcases lexeme_failed_size read with ⟨rfl, rfl⟩ | ⟨other, rfl⟩
    · have stopped : ScanEnds delimiter file before (c :: cs)
          ⟨.error ⟨.unexpected c, placeAfter file (before ++ [])⟩,
            .between (before ++ []) (c :: cs)⟩ :=
        .unexpected (List.nil_append (c :: cs)).symm (faulty_of_lexeme read).2
      simpa using stopped
    · rw [List.take_length, List.drop_length]
      exact .unclosed other

/-- On an unexpected character a scan stays where it is. -/
theorem perform_unexpected {c : Char} {cs : List Char} (h : Unexpected delimiter c cs) :
    (Cursor.between before (c :: cs)).perform delimiter file .tokenize =
      (.failed ⟨.unexpected c, placeAfter file before⟩, .between before (c :: cs)) := by
  rw [Cursor.perform, Cursor.scan_failed (lexeme_of_unexpected h)]
  rfl

end Scans

/-! Calls. -/

section Calls

variable {delimiter : Delimiter} {file : String} {before rest : List Char}

/-- The part of `CursorCall` that is about the cursor alone: a part of the rest has moved to the
front. -/
theorem moved (before : List Char) {used left : List Char} (split : rest = used ++ left) :
    (Cursor.between (before ++ used) left).Tracks (before ++ rest) ∧
      (Cursor.between before rest).pos ≤ (Cursor.between (before ++ used) left).pos := by
  constructor
  · rw [split, ← List.append_assoc]
    exact Cursor.tracks_between (before ++ used) left
  · rw [Cursor.pos_between, Cursor.pos_between, List.length_append]
    omega

theorem cursorCall_look {step : CursorStep} (look : step.isLook = true) :
    CursorCall delimiter file (before ++ rest)
      (.of (Cursor.perform delimiter file) (.between before rest) step) := by
  have same : ((Cursor.between before rest).perform delimiter file step).2 =
      .between before rest := by
    cases step with
    | peek | lookAt | atEnd | location => rfl
    | advance | lineComment | blockComment | string | number | name | tokenize => cases look
  have answered : ∀ {answer},
      ((Cursor.between before rest).perform delimiter file step).1 = answer →
      (∀ t, answer ≠ .token t) ∧ ∀ e, answer ≠ .failed e := by
    rintro answer rfl
    cases step with
    | peek | atEnd | location => simp [Cursor.perform]
    | lookAt offset =>
      simp only [Cursor.perform]
      split <;> simp
    | advance | lineComment | blockComment | string | number | name | tokenize => cases look
  obtain ⟨noToken, noFault⟩ := answered rfl
  rw [Call.of, same]
  exact
    { tracks := Cursor.tracks_between before rest
      forward := Nat.le_refl _
      look := fun _ => rfl
      token := fun t answer => absurd answer (noToken t)
      unexpected := fun e c answer => absurd answer (noFault e)
      unclosed := fun e answer => absurd answer (noFault e) }

theorem cursorCall_advance :
    CursorCall delimiter file (before ++ rest)
      (.of (Cursor.perform delimiter file) (.between before rest) .advance) := by
  cases rest with
  | nil =>
    have done : (Cursor.between before []).perform delimiter file .advance =
        (.pastEnd, .between before []) := rfl
    rw [Call.of, done]
    exact ⟨Cursor.tracks_between before [], Nat.le_refl _, by simp [CursorStep.isLook], by simp,
      by simp, by simp⟩
  | cons c rest =>
    have done : (Cursor.between before (c :: rest)).perform delimiter file .advance =
        (.character (some c), .between (before ++ [c]) rest) := by
      rw [← Cursor.pass_between]
      rfl
    obtain ⟨tracks, forward⟩ := moved before (List.singleton_append (x := c)).symm
    rw [Call.of, done]
    exact ⟨tracks, forward, by simp [CursorStep.isLook], by simp, by simp, by simp⟩

theorem cursorCall_readToken {step : CursorStep} {kind : TokenKind} {read : List Char → Reading}
    (exhausts : Exhausts read) (reads : step.isLook = false)
    (performs : ∀ cursor : Cursor,
      cursor.perform delimiter file step = cursor.readToken file kind read) :
    CursorCall delimiter file (before ++ rest)
      (.of (Cursor.perform delimiter file) (.between before rest) step) := by
  rw [Call.of, performs, Cursor.readToken, Cursor.rest_between]
  cases found : read rest with
  | taken text size =>
    simp only
    rw [Cursor.forward_eq_between]
    obtain ⟨tracks, forward⟩ := moved before (List.take_append_drop size rest).symm
    refine ⟨tracks, forward, by simp [reads], ?_, by simp, by simp⟩
    rintro t ⟨⟩
    rfl
  | failed fault size =>
    -- A reader that fails leaves nothing behind it.
    obtain ⟨other, rfl⟩ := exhausts rest fault size found
    simp only
    rw [Cursor.forward_eq_between, List.take_length, List.drop_length]
    obtain ⟨tracks, forward⟩ := moved before (List.append_nil rest).symm
    refine ⟨tracks, forward, by simp [reads], ?_, ?_, ?_⟩
    · intro t answer
      cases fault <;> cases answer
    · intro e c answer unexpected
      cases fault with
      | pastEnd => cases answer
      | openString | openComment =>
        cases answer
        cases unexpected
      | unexpected d => exact absurd rfl (other d)
    · intro e _ _
      rw [Cursor.pos_between]

theorem cursorCall_tokenize :
    CursorCall delimiter file (before ++ rest)
      (.of (Cursor.perform delimiter file) (.between before rest) .tokenize) := by
  have ends := scan_ends delimiter file before rest
  rw [Call.of, Cursor.perform]
  generalize (Cursor.between before rest).scan delimiter file = scan at ends
  cases ends with
  | done =>
    obtain ⟨tracks, forward⟩ := moved before (List.append_nil rest).symm
    exact ⟨tracks, forward, by simp [CursorStep.isLook], by simp, by simp, by simp⟩
  | @unexpected used cs c split found =>
    obtain ⟨tracks, forward⟩ := moved before split
    refine ⟨tracks, forward, by simp [CursorStep.isLook], by simp, ?_, ?_⟩
    · rintro e d ⟨⟩ ⟨⟩
      refine ⟨?_, rfl, perform_unexpected found⟩
      rw [Cursor.pos_between, split, ← List.append_assoc, List.getElem?_append_right (by omega)]
      simp
    · rintro e ⟨⟩ (fault | fault) <;> cases fault
  | @unclosed fault location other =>
    obtain ⟨tracks, forward⟩ := moved before (List.append_nil rest).symm
    refine ⟨tracks, forward, by simp [CursorStep.isLook], by simp, ?_, ?_⟩
    · rintro e c ⟨⟩ unexpected
      exact absurd unexpected (other c)
    · intro e _ _
      rw [Cursor.pos_between]

/-- What one step does, wherever the cursor stands. -/
theorem cursorCall_of_tracks {source : List Char} {cursor : Cursor} (h : cursor.Tracks source)
    (step : CursorStep) :
    CursorCall delimiter file source (.of (Cursor.perform delimiter file) cursor step) := by
  obtain ⟨before, rest, rfl, rfl⟩ := h.eq_between
  cases step with
  | peek | lookAt | atEnd | location => exact cursorCall_look rfl
  | advance => exact cursorCall_advance
  | lineComment => exact cursorCall_readToken exhausts_lineComment rfl fun _ => rfl
  | blockComment => exact cursorCall_readToken exhausts_blockComment rfl fun _ => rfl
  | string => exact cursorCall_readToken exhausts_string rfl fun _ => rfl
  | number => exact cursorCall_readToken exhausts_number rfl fun _ => rfl
  | name => exact cursorCall_readToken exhausts_name rfl fun _ => rfl
  | tokenize => exact cursorCall_tokenize

end Calls

/-- In every session a cursor keeps its place: each call leaves it at a place of the source with the
line and the column of that place, and not further back than before. -/
theorem cursor_session_keeps_place (delimiter : Delimiter) (file source : String)
    (steps : List CursorStep) :
    (Cursor.ofSource source).performAll delimiter file steps =
      (calls (Cursor.perform delimiter file) (.ofSource source) steps).map
        (fun call => (call.answer, call.after)) ∧
    ∀ call ∈ calls (Cursor.perform delimiter file) (.ofSource source) steps,
      CursorCall delimiter file source.toList call := by
  constructor
  · exact (map_calls (fun _ => rfl) (fun _ _ _ => rfl) _ steps).symm
  · have start : (Cursor.ofSource source).Tracks source.toList :=
      Cursor.tracks_between [] source.toList
    have keeps : ∀ cursor step, Cursor.Tracks source.toList cursor →
        Cursor.Tracks source.toList (cursor.perform delimiter file step).2 :=
      fun cursor step tracks => (cursorCall_of_tracks tracks step).tracks
    exact forall_mem_calls keeps (fun cursor step tracks => cursorCall_of_tracks tracks step) start
      steps

theorem open_string_session :
    (Cursor.ofSource "a'b\n").performAll .default "a.xo" [.name, .string] =
      [(.token ⟨.name, "a", ⟨1, 1, "a.xo"⟩⟩, .between ['a'] ['\'', 'b', '\n']),
       (.failed ⟨.openString, ⟨1, 2, "a.xo"⟩⟩, .between ['a', '\'', 'b', '\n'] [])] ∧
    CursorCall .default "a.xo" ['a', '\'', 'b', '\n']
      ⟨.between ['a'] ['\'', 'b', '\n'], .string, .failed ⟨.openString, ⟨1, 2, "a.xo"⟩⟩,
        .between ['a', '\'', 'b', '\n'] []⟩ := by
  obtain ⟨-, each⟩ := cursor_session_keeps_place .default "a.xo" "a'b\n" [.name, .string]
  exact ⟨rfl, each _ (List.mem_cons_of_mem _ List.mem_cons_self)⟩

end XoLang
