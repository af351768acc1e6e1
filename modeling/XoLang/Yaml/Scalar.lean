import XoLang.Text.Hex
import XoLang.Yaml.Place

/-!
# Scalars

The texts of plain, quoted and block scalars. A line end inside a plain or quoted scalar is read
as a blank, and blank lines after it as line ends. The escapes of a double-quoted scalar can name
halves of surrogate pairs. Every loop takes at least one character a round, so the length of the
rest bounds the rounds.
-/

namespace XoLang.Yaml

/-- A text and the place behind it. -/
abbrev Scanned := List Char × Place

/-! ## Plain scalars -/

/-- Whether a character cannot follow a colon that belongs to a plain scalar in brackets. -/
def isBracket (c : Char) : Bool :=
  c = ',' || c = '[' || c = ']' || c = '\x7b' || c = '\x7d'

/-- Whether a plain scalar stops before a character; `rest` follows it. -/
def stopsPlain (flow : Bool) (c : Char) (rest : List Char) : Bool :=
  isSpace c || (c = ':' && (wordEnds rest || (flow && endsBefore isBracket rest))) ||
    (flow && (isBracket c || c = '?'))

/-- The characters up to the next stop. -/
def plainRun (flow : Bool) : List Char → List Char
  | [] => []
  | c :: cs => if stopsPlain flow c cs then [] else c :: plainRun flow cs

/-- How a gap in a plain scalar is read. -/
structure Gap where
  /-- What stands for the gap; nothing ends the scalar. -/
  text : List Char
  /-- Whether the gap has a line end. -/
  broken : Bool
  place : Place

/-- Blanks and line ends after the first line end; nothing if a mark between documents follows. -/
def blankLines (breaks : List Char) : Nat → Place → Option (List Char) × Place
  | 0, p => (some breaks.reverse, p)
  | fuel + 1, p =>
    if p.peek? = some ' ' then blankLines breaks fuel p.step
    else
      match p.lineBreak? with
      | none => (some breaks.reverse, p)
      | some (c, p) =>
        if marksDocument p.rest then (none, p) else blankLines (c :: breaks) fuel p

/-- A first line end and the ones after it, as they are read. -/
def foldBreaks (first : Char) (breaks : List Char) : List Char :=
  if first ≠ '\n' then first :: breaks
  else if breaks.isEmpty then [' ']
  else breaks

/-- The gap at a place in a plain scalar. -/
def plainGap (p : Place) : Gap :=
  let blanks := p.span (· = ' ')
  match blanks.2.lineBreak? with
  | none => ⟨blanks.1, false, blanks.2⟩
  | some (first, p) =>
    if marksDocument p.rest then ⟨[], true, p⟩
    else
      match blankLines [] p.rest.length p with
      | (some breaks, p) => ⟨foldBreaks first breaks, true, p⟩
      | (none, p) => ⟨[], true, p⟩

/-- A plain scalar: its text and the gap behind it. -/
structure Plain where
  text : List Char
  broken : Bool
  place : Place

/-- The rest of a plain scalar after `done` and the gap `gap`. -/
def plainRest (flow : Bool) (indent : Int) (done : List Char) : Nat → Gap → Plain
  | 0, gap => ⟨done, gap.broken, gap.place⟩
  | fuel + 1, gap =>
    let run := plainRun flow gap.place.rest
    if gap.place.peek? = some '#' || run.isEmpty then ⟨done, gap.broken, gap.place⟩
    else
      let done := done ++ gap.text ++ run
      let next := plainGap (gap.place.forward run.length)
      if next.text.isEmpty || next.place.peek? = some '#' ||
          (!flow && (next.place.column : Int) < indent) then
        ⟨done, next.broken, next.place⟩
      else plainRest flow indent done fuel next

/-- The plain scalar at a place. Its lines are indented by at least `indent` outside brackets. -/
def plain (flow : Bool) (indent : Int) (p : Place) : Plain :=
  plainRest flow indent [] (p.rest.length + 1) ⟨[], false, p⟩

/-! ## Quoted scalars -/

/-- The characters that short escapes stand for. -/
def shortEscapes : List (Char × Char) :=
  [('0', Char.ofNat 0), ('a', Char.ofNat 0x07), ('b', Char.ofNat 0x08), ('t', '\t'),
   ('\t', '\t'), ('n', '\n'), ('v', Char.ofNat 0x0b), ('f', Char.ofNat 0x0c), ('r', '\r'),
   ('e', Char.ofNat 0x1b), (' ', ' '), ('"', '"'), ('\\', '\\'), ('/', '/'),
   ('N', '\u0085'), ('_', '\u00a0'), ('L', '\u2028'), ('P', '\u2029')]

/-- How many hexadecimal digits follow the letter of a numeric escape. -/
def escapeWidth? (c : Char) : Option Nat :=
  if c = 'x' then some 2 else if c = 'u' then some 4 else if c = 'U' then some 8 else none

/-- The code of a numeric escape at a place that stands on its letter, and the place behind it. -/
def escapeCode? (p : Place) : Option (Nat × Place) :=
  match p.rest with
  | [] => none
  | c :: cs =>
    match escapeWidth? c with
    | some width =>
      let digits := cs.take width
      if digits.length < width then none
      else (Text.hexNumber? 0 digits).map fun code => (code, p.forward (width + 1))
    | none => none

/-- The code point with a code. -/
def pointOf (code : Nat) : Attempt CodePoint :=
  if 0x80000000 ≤ code then .error (.value .codeTooLarge)
  else if 0x110000 ≤ code then .error (.value .noCharacter)
  else .ok (.ofNat code)

/-- The line ends that follow in a quoted scalar, with blanks left out. A mark between documents
may not follow. -/
def quotedBreaks (breaks : List Char) : Nat → Place → Attempt Scanned
  | 0, p => .ok (breaks.reverse, p)
  | fuel + 1, p =>
    if marksDocument p.rest then .error .malformed
    else
      let p := (p.span fun c => c = ' ' || c = '\t').2
      match p.lineBreak? with
      | some (c, p) => quotedBreaks (c :: breaks) fuel p
      | none => .ok (breaks.reverse, p)

/-- Blanks and line ends in a quoted scalar. -/
def quotedGap (p : Place) : Attempt Scanned :=
  let blanks := p.span fun c => c = ' ' || c = '\t'
  match blanks.2.lineBreak? with
  | none => .ok blanks
  | some (first, p) =>
    match quotedBreaks [] (p.rest.length + 1) p with
    | .ok (breaks, p) => .ok (foldBreaks first breaks, p)
    | .error fault => .error fault

/-- An escape in a double-quoted scalar, after its backslash. -/
def quotedEscape (p : Place) : Attempt (CodeText × Place) :=
  match p.peek?.bind (shortEscapes.lookup ·), escapeCode? p, p.lineBreak? with
  | some c, _, _ => .ok ([.char c], p.step)
  | none, some (code, p), _ => (pointOf code).map fun point => ([point], p)
  | none, none, some (_, p) =>
    (quotedBreaks [] (p.rest.length + 1) p).map fun (breaks, p) => (.ofChars breaks, p)
  | none, none, none => .error .malformed

/-- The rest of a quoted scalar; `done` holds the code points read, last first. -/
def quotedRest (quote : Char) (done : CodeText) : Nat → Place → Attempt (CodeText × Place)
  | 0, _ => .error .malformed
  | fuel + 1, p =>
    match p.rest with
    | [] => .error .malformed
    | c :: cs =>
      if c = quote then
        if quote = '\'' && cs.head? = some '\'' then
          quotedRest quote (.char c :: done) fuel (p.forward 2)
        else .ok (done.reverse, p.step)
      else if isSpace c then
        match quotedGap p with
        | .ok (text, p) => quotedRest quote (.ofChars text.reverse ++ done) fuel p
        | .error fault => .error fault
      else if c = '\\' && quote = '"' then
        match quotedEscape p.step with
        | .ok (text, p) => quotedRest quote (text.reverse ++ done) fuel p
        | .error fault => .error fault
      else quotedRest quote (.char c :: done) fuel p.step

/-- The quoted scalar at a place that stands on its opening quote. -/
def quoted (quote : Char) (p : Place) : Attempt (CodeText × Place) :=
  quotedRest quote [] (p.rest.length + 1) p.step

/-! ## Block scalars -/

/-- What becomes of the line ends at the end of a block scalar. -/
inductive Chomping where
  | clip
  | strip
  | keep
  deriving DecidableEq, Repr

/-- The head of a block scalar: how it ends, and how far it is indented if that is said. -/
structure BlockHead where
  chomping : Chomping
  increment : Option Nat

/-- The sign that says how a block scalar ends. -/
def chomping? (p : Place) : Option (Chomping × Place) :=
  match p.peek? with
  | some '+' => some (.keep, p.step)
  | some '-' => some (.strip, p.step)
  | _ => none

/-- The digit that says how far a block scalar is indented; it is not zero. -/
def increment? (p : Place) : Attempt (Option Nat × Place) :=
  match p.peek? with
  | some c =>
    if c = '0' then .error .malformed
    else if c.isDigit then .ok (some (c.toNat - 48), p.step)
    else .ok (none, p)
  | none => .ok (none, p)

/-- The head of a block scalar, up to the end of its line. -/
def blockHead (p : Place) : Attempt (BlockHead × Place) :=
  match chomping? p with
  | some (chomping, p) => do
    let (increment, p) ← increment? p
    if blankOrLineEnds p.rest then return (⟨chomping, increment⟩, ← p.endLine)
    else throw .malformed
  | none => do
    let (increment, p) ← increment? p
    let (chomping, p) :=
      if increment.isSome then (chomping? p).getD (.clip, p) else (.clip, p)
    if blankOrLineEnds p.rest then return (⟨chomping, increment⟩, ← p.endLine)
    else throw .malformed

/-- The empty lines before a block scalar, and the deepest column of a blank among them. -/
def blockIndent (breaks : List Char) (deepest : Nat) : Nat → Place → List Char × Nat × Place
  | 0, p => (breaks.reverse, deepest, p)
  | fuel + 1, p =>
    if p.peek? = some ' ' then blockIndent breaks (max deepest p.step.column) fuel p.step
    else
      match p.lineBreak? with
      | some (c, p) => blockIndent (c :: breaks) deepest fuel p
      | none => (breaks.reverse, deepest, p)

/-- Up to the column `indent`, but not beyond the blanks. -/
def toIndent (indent : Nat) (p : Place) : Place :=
  p.forward (min (indent - p.column) (p.rest.takeWhile (· = ' ')).length)

/-- The empty lines that follow in a block scalar. -/
def blockBreaks (indent : Nat) (breaks : List Char) : Nat → Place → Scanned
  | 0, p => (breaks.reverse, p)
  | fuel + 1, p =>
    let p := toIndent indent p
    match p.lineBreak? with
    | some (c, p) => blockBreaks indent (c :: breaks) fuel p
    | none => (breaks.reverse, p)

/-- Whether a line starts with a blank or a tab. -/
def startsBlank (p : Place) : Bool := p.peek? = some ' ' || p.peek? = some '\t'

/-- The lines of a block scalar: `done` holds the text so far, `last` the last line end and
`breaks` the empty lines after it. -/
def blockLines (folded : Bool) (chomping : Chomping) (indent : Nat) (done last breaks : List Char) :
    Nat → Place → Scanned
  | 0, p => (done, p)
  | fuel + 1, p =>
    let ending := (if chomping = .strip then [] else last) ++
      (if chomping = .keep then breaks else [])
    if p.column = indent && !p.rest.isEmpty then
      let line := p.span fun c => !isBreak c
      let after := line.2.lineBreak?
      let last' := match after with
        | some (c, _) => [c]
        | none => []
      let next := blockBreaks indent [] (line.2.rest.length + 1) line.2.skipBreak
      let done := done ++ breaks ++ line.1
      if next.2.column = indent && !next.2.rest.isEmpty then
        let joint :=
          if folded && last' = ['\n'] && !startsBlank p && !startsBlank next.2 then
            (if next.1.isEmpty then [' '] else [])
          else last'
        blockLines folded chomping indent (done ++ joint) last' next.1 fuel next.2
      else
        (done ++ (if chomping = .strip then [] else last') ++
          (if chomping = .keep then next.1 else []), next.2)
    else (done ++ ending, p)

/-- The block scalar at a place that stands on its indicator, in a block indented by `parent`. -/
def block (folded : Bool) (parent : Int) (p : Place) : Attempt Scanned :=
  match blockHead p.step with
  | .error fault => .error fault
  | .ok (head, p) =>
    let least := (max (parent + 1) 1).toNat
    match head.increment with
    | some n =>
      let indent := least + n - 1
      let (breaks, p) := blockBreaks indent [] (p.rest.length + 1) p
      .ok (blockLines folded head.chomping indent [] [] breaks (p.rest.length + 1) p)
    | none =>
      let (breaks, deepest, p) := blockIndent [] 0 (p.rest.length + 1) p
      let indent := max least deepest
      .ok (blockLines folded head.chomping indent [] [] breaks (p.rest.length + 1) p)

end XoLang.Yaml
