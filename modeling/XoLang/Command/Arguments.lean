import XoLang.Text.DecimalDigit
import XoLang.Text.Lines
import XoLang.Text.Quoted

/-!
# Command-line arguments

Arguments are options, which start with a hyphen, and positional arguments. A long option may be
shortened as long as it is clear which one is meant; its value follows it or an equals sign. Short
options can be written together, the last one with its value. Everything after `--` is positional;
written as the value of an option it stands for no value. An argument that looks like a negative
number, or has a blank, is positional unless it is an option.

`parse` cuts a list of arguments into pieces in the order in which they take effect. A fault takes
effect after the pieces before it. Arguments that belong to nothing are extras.
-/

namespace XoLang.Arguments

/-- An option: what it means, how it is written and whether it has a value. -/
structure OptionSpec (α : Type) where
  key : α
  names : List String
  takesValue : Bool

/-- What the positional arguments are: one argument, or one with all that follows it. -/
inductive Positional where
  | single
  | remainder
  deriving DecidableEq, Repr

/-- Why arguments cannot be cut into pieces. -/
inductive Fault where
  | ambiguous (argument : String) (candidates : List String)
  | ignoredValue (option value : String)
  | valueMissing (option : String)
  deriving DecidableEq, Repr

/-- The message of a fault. -/
def Fault.message : Fault → String
  | .ambiguous argument candidates =>
    "ambiguous option: " ++ argument ++ " could match " ++ Text.join ", " candidates
  | .ignoredValue option value =>
    "argument " ++ option ++ ": ignored explicit argument " ++ Text.quoted value
  | .valueMissing option => "argument " ++ option ++ ": expected one argument"

/-- How messages name an option. -/
def OptionSpec.label (spec : OptionSpec α) : String := Text.join "/" spec.names

/-- An option as it was written, with the text behind it in the same argument. -/
structure Written (α : Type) where
  spec : OptionSpec α
  name : List Char
  glued : Option (List Char)

/-- What an argument is. -/
inductive Role (α : Type) where
  | separator
  | positional
  | option (written : Written α)
  | unknownOption

/-- The option with a name. -/
def named? (specs : List (OptionSpec α)) (name : List Char) : Option (OptionSpec α) :=
  specs.find? fun spec => spec.names.any fun n => n.toList = name

/-- The names of all options in order, each with its option. -/
def allNames (specs : List (OptionSpec α)) : List (String × OptionSpec α) :=
  specs.flatMap fun spec => spec.names.map fun name => (name, spec)

/-- The text before the first equals sign, and the one after it. -/
def splitEquals (cs : List Char) : List Char × Option (List Char) :=
  match cs.dropWhile (· ≠ '=') with
  | _ :: value => (cs.takeWhile (· ≠ '='), some value)
  | [] => (cs, none)

/-- The options that an argument may be short for. -/
def candidates (specs : List (OptionSpec α)) (cs : List Char) : List (Written α) :=
  match cs with
  | '-' :: '-' :: _ =>
    let (start, value) := splitEquals cs
    ((allNames specs).filter fun entry => start.isPrefixOf entry.1.toList).map fun entry =>
      ⟨entry.2, entry.1.toList, value⟩
  | _ =>
    (allNames specs).filterMap fun entry =>
      if entry.1.toList = cs.take 2 then
        some ⟨entry.2, entry.1.toList, some (cs.drop 2)⟩
      else if cs.isPrefixOf entry.1.toList then some ⟨entry.2, entry.1.toList, none⟩
      else none

/-- Whether a character is a digit of any script. -/
def isAnyDigit (c : Char) : Bool := (Text.digitValue? c).isSome

/-- Whether a text is a negative number, with a line end behind it or not. -/
def isNegativeNumber (cs : List Char) : Bool :=
  match cs with
  | '-' :: rest =>
    let body := if rest.getLast? = some '\n' then rest.dropLast else rest
    let fraction := body.dropWhile isAnyDigit
    (!body.isEmpty && fraction.isEmpty) ||
      (match fraction with
       | '.' :: digits => !digits.isEmpty && digits.all isAnyDigit
       | _ => false)
  | _ => false

/-- What an argument before the separator is. -/
def role (specs : List (OptionSpec α)) (argument : String) : Except Fault (Role α) :=
  let cs := argument.toList
  if cs.head? ≠ some '-' then .ok .positional
  else
    match named? specs cs with
    | some spec => .ok (.option ⟨spec, cs, none⟩)
    | none =>
      if cs.length = 1 then .ok .positional
      else
        let (name, value) := splitEquals cs
        match (if value.isSome then named? specs name else none) with
        | some spec => .ok (.option ⟨spec, name, value⟩)
        | none =>
          match candidates specs cs with
          | [written] => .ok (.option written)
          | [] =>
            if isNegativeNumber cs || cs.contains ' ' then .ok .positional
            else .ok .unknownOption
          | several =>
            .error (.ambiguous argument (several.map fun w => String.ofList w.name))

/-- The role of every argument. -/
def roles (specs : List (OptionSpec α)) : List String → Except Fault (List (String × Role α))
  | [] => .ok []
  | argument :: rest =>
    if argument = "--" then
      .ok ((argument, .separator) :: rest.map fun a => (a, .positional))
    else
      match role specs argument with
      | .error fault => .error fault
      | .ok r => (roles specs rest).map ((argument, r) :: ·)

/-- The value of an option. -/
inductive Value where
  | text (value : String)
  /-- The option takes no value, or the separator stands in the place of one. -/
  | nothing
  deriving DecidableEq, Repr

/-- The text of a value, if it has one. -/
def Value.text? : Value → Option String
  | .text value => some value
  | .nothing => none

/-- The value that a text stands for. -/
def Value.ofText (text : String) : Value := if text = "--" then .nothing else .text text

/-- A piece of the command line. -/
inductive Piece (α : Type) where
  | option (key : α) (value : Value)
  | positional (arguments : List String)
  deriving Repr

/-- The pieces of a command line, the arguments left over, and the fault at their end. -/
structure Pieces (α : Type) where
  pieces : List (Piece α)
  extras : List String
  fault : Option Fault

/-- More pieces in front. -/
def Pieces.add (pieces : List (Piece α)) (extras : List String) (after : Pieces α) : Pieces α :=
  { after with pieces := pieces ++ after.pieces, extras := extras ++ after.extras }

/-- What one argument with options says: pieces, and an option that needs the next argument. -/
structure Cluster (α : Type) where
  pieces : List (Piece α)
  open? : Option (OptionSpec α)

/-- Whether an option is written with one hyphen. -/
def isShort : List Char → Bool
  | '-' :: '-' :: _ => false
  | _ => true

/-- A text that may be missing: an empty one counts as missing. -/
def gluedRest (cs : List Char) : Option (List Char) := if cs.isEmpty then none else some cs

/-- Read the options of one argument; `fuel` is more than the length of what is written together.
Behind a short option without a value the next letter must be one too. -/
def cluster (specs : List (OptionSpec α)) (done : List (Piece α)) :
    Nat → Written α → Except Fault (Cluster α)
  | 0, _ => .ok ⟨done, none⟩
  | fuel + 1, w =>
    match w.glued with
    | none =>
      if w.spec.takesValue then .ok ⟨done, some w.spec⟩
      else .ok ⟨done ++ [.option w.spec.key .nothing], none⟩
    | some text =>
      if w.spec.takesValue then
        .ok ⟨done ++ [.option w.spec.key (.ofText (String.ofList text))], none⟩
      else
        let next := if isShort w.name then text.head?.bind fun c => named? specs ['-', c] else none
        match text, next with
        | c :: rest, some spec =>
          cluster specs (done ++ [.option w.spec.key .nothing]) fuel
            ⟨spec, ['-', c], gluedRest rest⟩
        | _, _ => .error (.ignoredValue w.spec.label (String.ofList text))

/-- Take positional arguments off the front: the arguments of the piece and what is left. -/
def takePositional (kind : Positional) (items : List (String × Role α)) :
    Option (List String × List (String × Role α)) :=
  let found := match items with
    | (_, .separator) :: (a, .positional) :: rest => some (["--", a], rest)
    | (a, .positional) :: rest => some ([a], rest)
    | _ => none
  match found, kind with
  | none, _ => none
  | some (front, rest), .remainder => some (front ++ rest.map (·.1), [])
  | some (front, (_, .separator) :: rest), .single => some (front ++ ["--"], rest)
  | some (front, rest), .single => some (front, rest)

/-- Whether an argument has an option. -/
def isOption : String × Role α → Bool
  | (_, .option _) => true
  | (_, .unknownOption) => true
  | _ => false

/-- Cut arguments with their roles into pieces; `kind` is the kind of the positional arguments
that are still to come. Every round takes an argument. -/
def cut (specs : List (OptionSpec α)) : Nat → Option Positional → List (String × Role α) → Pieces α
  | 0, _, items => ⟨[], items.map (·.1), none⟩
  | fuel + 1, kind, items =>
    match items with
    | [] => ⟨[], [], none⟩
    | (argument, .unknownOption) :: rest => (cut specs fuel kind rest).add [] [argument]
    | (_, .option written) :: rest =>
      match cluster specs [] (written.glued.elim 1 fun text => text.length + 2) written with
      | .error fault => ⟨[], [], some fault⟩
      | .ok found =>
        match found.open? with
        | none => (cut specs fuel kind rest).add found.pieces []
        | some spec =>
          match rest with
          | (value, .positional) :: rest =>
            (cut specs fuel kind rest).add
              (found.pieces ++ [.option spec.key (.ofText value)]) []
          | _ => ⟨[], [], some (.valueMissing spec.label)⟩
    | items =>
      match kind.bind fun kind => takePositional kind items with
      | some (arguments, rest) => (cut specs fuel none rest).add [.positional arguments] []
      | none =>
        let extra := items.takeWhile fun item => !isOption item
        (cut specs fuel kind (items.drop extra.length)).add [] (extra.map (·.1))

/-- Cut a command line into pieces. -/
def parse (specs : List (OptionSpec α)) (kind : Positional) (arguments : List String) : Pieces α :=
  match roles specs arguments with
  | .error fault => ⟨[], [], some fault⟩
  | .ok items => cut specs (items.length + 1) (some kind) items

end XoLang.Arguments
