import XoLang.Yaml.Scalar

/-!
# Tokens of a YAML text

Indentation is turned into tokens that open and close blocks. A key without an indicator is known
only at the colon behind it: the places where one may have started are noted, and its tokens are
inserted there. Where the text breaks a rule, the tokens end with a fault.
-/

namespace XoLang.Yaml

/-- A tag as it is written: a handle, which may be missing, and the rest. -/
structure TagText where
  handle : Option String
  suffix : String
  deriving DecidableEq, Repr

/-- A directive. -/
inductive Directive where
  | version (major : Nat)
  | tag (handle expansion : String)
  | other
  deriving DecidableEq, Repr

/-- A token. -/
inductive Token where
  | directive (value : Directive)
  | documentStart
  | documentEnd
  | streamEnd
  | blockSequenceStart
  | blockMappingStart
  | blockEnd
  | flowSequenceStart
  | flowSequenceEnd
  | flowMappingStart
  | flowMappingEnd
  | flowEntry
  | blockEntry
  | key
  | value
  | reference (name : String)
  | anchor (name : String)
  | tag (text : TagText)
  | scalar (text : CodeText) (plain : Bool)
  deriving DecidableEq, Repr

/-- The tokens of a text in order, and the fault that is met by going on behind them. -/
structure Tokens where
  list : List Token
  fault : Fault
  deriving Repr

/-! ## Names, tags and directives -/

/-- A short name, which is not empty. -/
def shortName (p : Place) : Attempt (String × Place) :=
  let (name, p) := p.span isNameChar
  if name.isEmpty then .error .malformed else .ok (String.ofList name, p)

/-- The name of an anchor or of a reference to one, after its indicator. -/
def anchorName (p : Place) : Attempt (String × Place) := do
  let (name, p) ← shortName p.step
  if endsBefore (fun c => isSpace c || "?:,]\x7d%@`".toList.contains c) p.rest then return (name, p)
  else throw .malformed

/-- A handle of a tag: an exclamation mark, or a name between two. -/
def tagHandle (p : Place) : Attempt (String × Place) :=
  match p.rest with
  | '!' :: ' ' :: _ => .ok ("!", p.step)
  | '!' :: _ =>
    let (name, p) := p.step.span isNameChar
    match p.peek? with
    | some '!' => .ok ("!" ++ String.ofList name ++ "!", p.step)
    | _ => .error .malformed
  | _ => .error .malformed

/-- Whether a character may stand in the rest of a tag. -/
def isTagChar (c : Char) : Bool :=
  c.isAlphanum || "-;/?:@&=+$,_.!~*'()[]%".toList.contains c

/-- Read percent escapes in the rest of a tag. -/
def percentDecode : List Char → Attempt (List UInt8)
  | [] => .ok []
  | '%' :: a :: b :: cs =>
    match Text.hexNumber? 0 [a, b] with
    | some n => (percentDecode cs).map (n.toUInt8 :: ·)
    | none => .error .malformed
  | c :: cs =>
    if c = '%' then .error .malformed
    else (percentDecode cs).map ((String.singleton c).toUTF8.toList ++ ·)

/-- The rest of a tag, which is not empty. -/
def tagSuffix (p : Place) : Attempt (String × Place) := do
  let (chars, p) := p.span isTagChar
  if chars.isEmpty then throw .malformed
  match String.fromUTF8? (ByteArray.mk (← percentDecode chars).toArray) with
  | some text => return (text, p)
  | none => throw .malformed

/-- The tag at a place that stands on its exclamation mark. -/
def tagText (p : Place) : Attempt (TagText × Place) := do
  let (tag, p) ← match p.rest with
    | _ :: '<' :: _ => do
      let (suffix, p) ← tagSuffix (p.forward 2)
      if p.peek? = some '>' then pure (TagText.mk none suffix, p.step) else throw .malformed
    | _ :: cs =>
      if wordEnds cs then pure (TagText.mk none "!", p.step)
      else if (cs.takeWhile fun c => !(c = ' ' || isBreak c)).contains '!' then do
        let (handle, p) ← tagHandle p
        let (suffix, p) ← tagSuffix p
        pure (TagText.mk (some handle) suffix, p)
      else do
        let (suffix, p) ← tagSuffix p.step
        pure (TagText.mk (some "!") suffix, p)
    | [] => throw .malformed
  if blankOrLineEnds p.rest then return (tag, p) else throw .malformed

/-- A number of a version. -/
def versionNumber (p : Place) : Attempt (Nat × Place) :=
  let (digits, p) := p.span Char.isDigit
  if digits.isEmpty then .error .malformed
  else
    match Text.readInteger 10 digits with
    | .ok n => .ok (n.toNat, p)
    | .error fault => .error (.value (.ofInteger 10 (.ofChars digits) fault))

/-- The directive at a place that stands on its percent sign. -/
def directive (p : Place) : Attempt (Directive × Place) := do
  let (name, p) ← shortName p.step
  if !blankOrLineEnds p.rest then throw .malformed
  if name = "YAML" then
    let (major, p) ← versionNumber p.skipBlanks
    if p.peek? ≠ some '.' then throw .malformed
    let (_, p) ← versionNumber p.step
    if !blankOrLineEnds p.rest then throw .malformed
    return (.version major, ← p.endLine)
  else if name = "TAG" then
    let (handle, p) ← tagHandle p.skipBlanks
    if p.peek? ≠ some ' ' then throw .malformed
    let (expansion, p) ← tagSuffix p.skipBlanks
    if !blankOrLineEnds p.rest then throw .malformed
    return (.tag handle expansion, ← p.endLine)
  else return (.other, ← (p.span fun c => !isBreak c).2.endLine)

/-! ## The token stream -/

/-- A place where a key may have started. -/
structure KeyStart where
  /-- How many tokens stood before it. -/
  number : Nat
  /-- Whether only a key can stand there. -/
  required : Bool
  index : Nat
  line : Nat
  column : Nat
  deriving Repr

/-- A text that is being cut into tokens. -/
structure Scanner where
  place : Place
  tokens : Array Token
  /-- How many brackets are open. -/
  flow : Nat
  /-- The column of the block; before the first it is -1. -/
  indent : Int
  /-- The columns of the enclosing blocks, the innermost first. -/
  outer : List Int
  /-- Whether a key without an indicator may start here. -/
  keyAllowed : Bool
  /-- The possible starts of keys, one for each depth of brackets. -/
  keys : List (Nat × KeyStart)
  deriving Repr

namespace Scanner

/-- The start of a text. -/
def start (text : String) : Scanner :=
  { place := .start text, tokens := #[], flow := 0, indent := -1, outer := [], keyAllowed := true,
    keys := [] }

/-- Add a token. -/
def push (s : Scanner) (t : Token) : Scanner := { s with tokens := s.tokens.push t }

/-- Move to a place. -/
def goto (s : Scanner) (p : Place) : Scanner := { s with place := p }

/-- Go to the next token: pass blanks, comments and line ends. -/
def skip : Nat → Scanner → Scanner
  | 0, s => s
  | fuel + 1, s =>
    let p := s.place.skipBlanks.skipComment
    match p.lineBreak? with
    | some (_, p) =>
      skip fuel { s with place := p, keyAllowed := s.keyAllowed || s.flow = 0 }
    | none => s.goto p

/-- Whether the start of a key is too far back to have a colon behind it. -/
def isStale (s : Scanner) (k : KeyStart) : Bool :=
  k.line ≠ s.place.line || 1024 < s.place.index - k.index

/-- Forget starts of keys that are too far back. -/
def dropStale (s : Scanner) : Attempt Scanner :=
  if s.keys.any fun k => s.isStale k.2 && k.2.required then .error .malformed
  else .ok { s with keys := s.keys.filter fun k => !s.isStale k.2 }

/-- Forget the start of a key at this depth of brackets. -/
def dropKey (s : Scanner) : Attempt Scanner :=
  if s.keys.any fun k => k.1 = s.flow && k.2.required then .error .malformed
  else .ok { s with keys := s.keys.filter fun k => k.1 ≠ s.flow }

/-- Note that a key may start here. -/
def noteKey (s : Scanner) : Attempt Scanner := do
  if s.keyAllowed then
    let s ← s.dropKey
    let start : KeyStart :=
      { number := s.tokens.size, required := s.flow = 0 && s.indent = s.place.column,
        index := s.place.index, line := s.place.line, column := s.place.column }
    return { s with keys := (s.flow, start) :: s.keys }
  else return s

/-- Close the blocks that are indented further than a column. -/
def unwind (column : Int) : List Int → Scanner → Scanner
  | [], s => s
  | outer :: rest, s =>
    if column < s.indent then
      unwind column rest { s.push .blockEnd with indent := outer, outer := rest }
    else s

/-- Close the blocks that are indented further than a column; in brackets there are none. -/
def closeBlocks (s : Scanner) (column : Int) : Scanner :=
  if s.flow = 0 then unwind column s.outer s else s

/-- Open a block at a column, unless one that is indented as far is open. Gives whether it did. -/
def openBlock (s : Scanner) (column : Nat) : Bool × Scanner :=
  if s.indent < column then
    (true, { s with outer := s.indent :: s.outer, indent := column })
  else (false, s)

/-- Open a block here for an indicator outside of brackets. -/
def openHere (s : Scanner) (opening : Token) : Attempt Scanner :=
  if s.flow = 0 then
    if s.keyAllowed then
      let (opened, s) := s.openBlock s.place.column
      .ok (if opened then s.push opening else s)
    else .error .malformed
  else .ok s

/-- Take an indicator of `n` characters as a token. -/
def indicator (s : Scanner) (n : Nat) (t : Token) : Scanner :=
  (s.push t).goto (s.place.forward n)

/-- The end of the text. -/
def finish (s : Scanner) : Attempt Scanner := do
  let s ← (s.closeBlocks (-1)).dropKey
  return { s.push .streamEnd with keyAllowed := false, keys := [] }

/-- A directive. -/
def takeDirective (s : Scanner) : Attempt Scanner := do
  let s ← (s.closeBlocks (-1)).dropKey
  let (value, p) ← directive s.place
  return { s.push (.directive value) with place := p, keyAllowed := false }

/-- A mark between documents. -/
def takeDocumentMark (s : Scanner) (t : Token) : Attempt Scanner := do
  let s ← (s.closeBlocks (-1)).dropKey
  return { s.indicator 3 t with keyAllowed := false }

/-- An opening bracket. -/
def openFlow (s : Scanner) (t : Token) : Attempt Scanner := do
  let s ← s.noteKey
  return { s.indicator 1 t with flow := s.flow + 1, keyAllowed := true }

/-- A closing bracket. -/
def closeFlow (s : Scanner) (t : Token) : Attempt Scanner := do
  let s ← s.dropKey
  return { s.indicator 1 t with flow := s.flow - 1, keyAllowed := false }

/-- A comma in brackets. -/
def takeFlowEntry (s : Scanner) : Attempt Scanner := do
  let s ← s.dropKey
  return { s.indicator 1 .flowEntry with keyAllowed := true }

/-- A hyphen before an item. -/
def takeBlockEntry (s : Scanner) : Attempt Scanner := do
  let s ← s.openHere .blockSequenceStart
  let s ← s.dropKey
  return { s.indicator 1 .blockEntry with keyAllowed := true }

/-- A question mark before a key. -/
def takeKey (s : Scanner) : Attempt Scanner := do
  let s ← s.openHere .blockMappingStart
  let s ← s.dropKey
  return { s.indicator 1 .key with keyAllowed := s.flow = 0 }

/-- Insert the tokens of a key that started earlier. -/
def insertKey (s : Scanner) (k : KeyStart) : Scanner :=
  let s := { s with tokens := s.tokens.insertIdxIfInBounds k.number .key }
  if s.flow = 0 then
    let (opened, s) := s.openBlock k.column
    if opened then { s with tokens := s.tokens.insertIdxIfInBounds k.number .blockMappingStart }
    else s
  else s

/-- A colon before a value. -/
def takeValue (s : Scanner) : Attempt Scanner := do
  match s.keys.lookup s.flow with
  | some k =>
    let s := { s with keys := s.keys.filter fun k => k.1 ≠ s.flow }
    return { (s.insertKey k).indicator 1 .value with keyAllowed := false }
  | none =>
    let s ← s.openHere .blockMappingStart
    let s ← s.dropKey
    return { s.indicator 1 .value with keyAllowed := s.flow = 0 }

/-- A token that may be the start of a key; `read` gives it and the place behind it. -/
def takeNode (s : Scanner) (read : Place → Attempt (Token × Place)) : Attempt Scanner := do
  let s ← s.noteKey
  let (t, p) ← read s.place
  return { s.push t with place := p, keyAllowed := false }

/-- A block scalar. -/
def takeBlock (s : Scanner) (folded : Bool) : Attempt Scanner := do
  let s ← s.dropKey
  let (text, p) ← block folded s.indent s.place
  return { s.push (.scalar (.ofChars text) false) with place := p, keyAllowed := true }

/-- A quoted scalar. -/
def takeQuoted (s : Scanner) (quote : Char) : Attempt Scanner :=
  s.takeNode fun p => do
    let (text, p) ← quoted quote p
    return (.scalar text false, p)

/-- A plain scalar. A key may follow it if it ends with a line end. -/
def takePlain (s : Scanner) : Attempt Scanner := do
  let s ← s.noteKey
  let found := plain (0 < s.flow) (s.indent + 1) s.place
  return { s.push (.scalar (.ofChars found.text) true) with
    place := found.place, keyAllowed := found.broken }

/-- Whether a plain scalar can start with a character that `rest` follows. -/
def startsPlain (flow : Bool) (c : Char) (rest : List Char) : Bool :=
  !(isSpace c || "-?:,[]\x7b\x7d#&*!|>'\"%@`".toList.contains c) ||
    (!wordEnds rest && (c = '-' || (!flow && (c = '?' || c = ':'))))

/-- The next token at a place that stands on `c`, which `rest` follows. -/
def take (s : Scanner) (c : Char) (rest : List Char) : Attempt Scanner :=
  let flow := 0 < s.flow
  let atMark := s.place.column = 0 && marksDocument (c :: rest)
  if c = '%' && s.place.column = 0 then s.takeDirective
  else if c = '-' && atMark then s.takeDocumentMark .documentStart
  else if c = '.' && atMark then s.takeDocumentMark .documentEnd
  else if c = '[' then s.openFlow .flowSequenceStart
  else if c = '\x7b' then s.openFlow .flowMappingStart
  else if c = ']' then s.closeFlow .flowSequenceEnd
  else if c = '\x7d' then s.closeFlow .flowMappingEnd
  else if c = ',' then s.takeFlowEntry
  else if c = '-' && wordEnds rest then s.takeBlockEntry
  else if c = '?' && (flow || wordEnds rest) then s.takeKey
  else if c = ':' && (flow || wordEnds rest) then s.takeValue
  else if c = '*' then s.takeNode fun p => (anchorName p).map fun r => (.reference r.1, r.2)
  else if c = '&' then s.takeNode fun p => (anchorName p).map fun r => (.anchor r.1, r.2)
  else if c = '!' then s.takeNode fun p => (tagText p).map fun r => (.tag r.1, r.2)
  else if c = '|' && !flow then s.takeBlock false
  else if c = '>' && !flow then s.takeBlock true
  else if c = '\'' || c = '"' then s.takeQuoted c
  else if startsPlain flow c rest then s.takePlain
  else .error .malformed

/-- The next token, and whether it is the last. -/
def step (s : Scanner) : Attempt (Scanner × Bool) := do
  let s ← (skip (s.place.rest.length + 1) s).dropStale
  let s := s.closeBlocks s.place.column
  match s.place.rest with
  | [] => return (← s.finish, true)
  | c :: rest => return (← s.take c rest, false)

/-- The tokens before which no key can be inserted any more. -/
def settled (s : Scanner) : List Token :=
  let open? := s.keys.filter fun k => !s.isStale k.2
  s.tokens.toList.take (open?.foldl (fun n k => min n k.2.number) s.tokens.size)

/-- All tokens, or those before a fault. Every token but the last takes a character, so the length
of the text bounds the rounds. -/
def run : Nat → Scanner → Tokens
  | 0, s => ⟨s.settled, .malformed⟩
  | fuel + 1, s =>
    match s.step with
    | .error fault => ⟨s.settled, fault⟩
    | .ok (s, true) => ⟨s.tokens.toList, .malformed⟩
    | .ok (s, false) => run fuel s

end Scanner

/-- A text without the byte order mark that may stand in front. -/
def withoutMark (p : Place) : Place := if p.peek? = some '\ufeff' then p.step else p

/-- The tokens of a text. -/
def tokens (text : String) : Tokens :=
  if text.toList.all isAllowed then
    let s := Scanner.start text
    (s.goto (withoutMark s.place)).run (text.length + 2)
  else ⟨[], .malformed⟩

end XoLang.Yaml
