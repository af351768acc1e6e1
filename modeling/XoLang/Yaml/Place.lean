import XoLang.Datum.Fault

/-!
# Places in a YAML text

A place keeps the rest of the text with its index, line and column, all counted from zero. Line
ends are CR LF, CR, LF, U+0085, U+2028 and U+2029; all but the last two are read as a line feed.
-/

namespace XoLang.Yaml

/-- Why a text gives no value. -/
inductive Fault where
  /-- The text breaks a rule of the format. -/
  | malformed
  /-- A text of the right form stands for no value. -/
  | value (fault : ValueFault)
  deriving DecidableEq, Repr

/-- A result or a fault. -/
abbrev Attempt := Except Fault

/-- Whether a character ends a line. -/
def isBreak (c : Char) : Bool :=
  c = '\n' || c = '\r' || c = '\u0085' || c = '\u2028' || c = '\u2029'

/-- Whether a character is a blank, a tab or ends a line. -/
def isSpace (c : Char) : Bool := c = ' ' || c = '\t' || isBreak c

/-- Whether a text is empty or starts with a character of a class. -/
def endsBefore (class? : Char → Bool) : List Char → Bool
  | [] => true
  | c :: _ => class? c

/-- Whether a word cannot go on: the text is empty or starts with a space. -/
def wordEnds (cs : List Char) : Bool := endsBefore isSpace cs

/-- Whether a line ends here. -/
def lineEnds (cs : List Char) : Bool := endsBefore isBreak cs

/-- Whether a line ends here or a blank follows. -/
def blankOrLineEnds (cs : List Char) : Bool := endsBefore (fun c => c = ' ' || isBreak c) cs

/-- Whether a character may stand in a text at all. -/
def isAllowed (c : Char) : Bool :=
  let n := c.toNat
  n = 0x9 || n = 0xa || n = 0xd || (0x20 ≤ n && n ≤ 0x7e) || n = 0x85 ||
    (0xa0 ≤ n && n ≤ 0xd7ff) || (0xe000 ≤ n && n ≤ 0xfffd) || 0x10000 ≤ n

/-- Whether a character may stand in a short name. -/
def isNameChar (c : Char) : Bool := c.isAlphanum || c = '-' || c = '_'

/-- Whether a line that is a mark between documents starts here. -/
def marksDocument : List Char → Bool
  | '-' :: '-' :: '-' :: cs => wordEnds cs
  | '.' :: '.' :: '.' :: cs => wordEnds cs
  | _ => false

/-- A place in a text. -/
structure Place where
  rest : List Char
  index : Nat
  line : Nat
  column : Nat
  deriving Repr

namespace Place

/-- The start of a text. -/
def start (text : String) : Place := ⟨text.toList, 0, 0, 0⟩

/-- The next character. -/
def peek? (p : Place) : Option Char := p.rest.head?

/-- Whether a character ends its line; a CR before an LF does not. -/
def endsLine (c : Char) (rest : List Char) : Bool :=
  isBreak c && !(c = '\r' && rest.head? = some '\n')

/-- The place behind the next character. A byte order mark takes no column. -/
def step (p : Place) : Place :=
  match p.rest with
  | [] => p
  | c :: rest =>
    if endsLine c rest then ⟨rest, p.index + 1, p.line + 1, 0⟩
    else ⟨rest, p.index + 1, p.line, if c = '\ufeff' then p.column else p.column + 1⟩

/-- The place `n` characters on. -/
def forward : Nat → Place → Place
  | 0, p => p
  | n + 1, p => forward n p.step

/-- The characters of a class that follow, and the place behind them. -/
def span (p : Place) (class? : Char → Bool) : List Char × Place :=
  let run := p.rest.takeWhile class?
  (run, p.forward run.length)

/-- The place behind the blanks that follow. -/
def skipBlanks (p : Place) : Place := (p.span (· = ' ')).2

/-- The place behind a comment that follows. -/
def skipComment (p : Place) : Place :=
  if p.peek? = some '#' then (p.span fun c => !isBreak c).2 else p

/-- A line end, as it is read, and the place behind it. -/
def lineBreak? (p : Place) : Option (Char × Place) :=
  match p.rest with
  | '\r' :: '\n' :: _ => some ('\n', p.forward 2)
  | c :: _ =>
    if isBreak c then some (if c = '\u2028' || c = '\u2029' then c else '\n', p.step) else none
  | [] => none

/-- The place behind a line end, if one follows. -/
def skipBreak (p : Place) : Place :=
  match p.lineBreak? with
  | some (_, p) => p
  | none => p

/-- The place behind blanks, a comment and a line end, which must follow. -/
def endLine (p : Place) : Attempt Place :=
  let p := p.skipBlanks.skipComment
  if lineEnds p.rest then .ok p.skipBreak else .error .malformed

end Place

end XoLang.Yaml
