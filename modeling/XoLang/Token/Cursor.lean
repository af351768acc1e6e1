import XoLang.Location

/-!
# Cursors

A cursor stands in a source between the characters that have been passed and those that are left.
It keeps the line and the column of the next character.
-/

namespace XoLang

/-- A place in a source that is being read. -/
structure Cursor where
  /-- The characters that have been passed, the last one first. -/
  passed : List Char
  /-- The characters that are left. -/
  rest : List Char
  line : Nat
  column : Nat
  deriving Repr

namespace Cursor

/-- The cursor in front of a source. -/
def ofSource (source : String) : Cursor := ⟨[], source.toList, 1, 1⟩

/-- The whole source. -/
def source (cursor : Cursor) : List Char := cursor.passed.reverse ++ cursor.rest

/-- How many characters have been passed. -/
def pos (cursor : Cursor) : Nat := cursor.passed.length

/-- Whether nothing is left. -/
def atEnd (cursor : Cursor) : Bool := cursor.rest.isEmpty

/-- The place of the next character. -/
def location (cursor : Cursor) (file : String) : Location := ⟨cursor.line, cursor.column, file⟩

/-- The next character. -/
def peek? (cursor : Cursor) : Option Char := cursor.rest.head?

/-- Pass a given next character. -/
def pass (cursor : Cursor) (c : Char) (rest : List Char) : Cursor where
  passed := c :: cursor.passed
  rest := rest
  line := if c = '\n' then cursor.line + 1 else cursor.line
  column := if c = '\n' then 1 else cursor.column + 1

/-- Pass the next character, if there is one. -/
def advance? (cursor : Cursor) : Option (Char × Cursor) :=
  match cursor.rest with
  | [] => none
  | c :: rest => some (c, cursor.pass c rest)

/-- Pass `n` characters, or all if there are fewer. -/
def forward : Nat → Cursor → Cursor
  | 0, cursor => cursor
  | n + 1, cursor =>
    match cursor.rest with
    | [] => cursor
    | c :: rest => forward n (cursor.pass c rest)

/-- What a look at a distance from the cursor finds. -/
inductive Look where
  /-- A character, or nothing behind the end. -/
  | found (c : Option Char)
  /-- A place before the start that does not wrap onto the source. -/
  | outside
  deriving DecidableEq, Repr

/-- Look at a distance. A place before the start counts from the end of the source. -/
def lookAt (cursor : Cursor) (offset : Int) : Look :=
  let index := (cursor.pos : Int) + offset
  if 0 ≤ index then .found (cursor.source[index.toNat]?)
  else if 0 ≤ index + cursor.source.length then
    .found (cursor.source[(index + cursor.source.length).toNat]?)
  else .outside

/-- Passing characters takes them off the rest. -/
theorem rest_forward (n : Nat) (cursor : Cursor) : (cursor.forward n).rest = cursor.rest.drop n := by
  induction n generalizing cursor with
  | zero => rfl
  | succ n ih =>
    cases h : cursor.rest with
    | nil => simp [forward, h]
    | cons c rest => simp [forward, h, ih, pass]

/-- Passing at least one character leaves fewer. -/
theorem length_rest_forward_lt {n : Nat} {cursor : Cursor} {c : Char} {cs : List Char}
    (h : cursor.rest = c :: cs) : (cursor.forward (n + 1)).rest.length < cursor.rest.length := by
  rw [rest_forward, h, List.drop_succ_cons, List.length_drop, List.length_cons]
  omega

end Cursor

end XoLang
