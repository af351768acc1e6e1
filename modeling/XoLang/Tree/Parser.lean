import XoLang.Diagnostic
import XoLang.Token
import XoLang.Tree

/-!
# Reading tokens into trees

One item is a literal, a comment, a line end, a declaration, a call or a comma, which gives no
node. What is allowed depends on the context: declarations stand only among statements, comments
not among arguments, and line ends among arguments give no node. The body of a declaration is what
stands before the next line end and is read on its own.

Readers work on the tokens that are left. An outcome tells how many of them were taken, also when
reading failed; after a fault in the body of a declaration the whole body counts as taken.
-/

namespace XoLang

/-- Where an item stands. -/
inductive Context where
  | statement
  | assignment
  | arguments
  deriving DecidableEq, Repr

/-- The word that starts a declaration. -/
def declarationWord : String := "let"

/-- Whether a word is a boolean literal. -/
def isBooleanWord (word : String) : Bool := word = "true" || word = "false"

/-- Whether a word cannot be the name of a variable. -/
def isReserved (word : String) : Bool := word = declarationWord || isBooleanWord word

/-- Why tokens cannot be read. -/
inductive ParseFault where
  /-- An item was needed where the tokens end. -/
  | unexpectedEnd
  /-- Something particular was needed where the tokens end. -/
  | missing (what : String)
  /-- Something else stands where something particular was needed. -/
  | mismatch (what : String) (found : Token)
  | reservedName (found : Token)
  | commentInArguments (found : Token)
  | nestedDeclaration (found : Token)
  | notCalled (found : Token)
  | unclosedCall (callee : Token)
  | unexpected (found : Token)
  deriving DecidableEq, Repr

namespace ParseFault

/-- The token at fault; there is none where the tokens end too early. -/
def token? : ParseFault → Option Token
  | .unexpectedEnd => none
  | .missing _ => none
  | .mismatch _ found => some found
  | .reservedName found => some found
  | .commentInArguments found => some found
  | .nestedDeclaration found => some found
  | .notCalled found => some found
  | .unclosedCall callee => some callee
  | .unexpected found => some found

/-- The message of a fault. -/
def message : ParseFault → String
  | .unexpectedEnd => "Unexpected end of input"
  | .missing what => "Expected " ++ what ++ ", got end of input"
  | .mismatch what found =>
    "Expected " ++ what ++ ", got " ++ found.kind.label ++ " (" ++ Text.quoted found.text ++ ")"
  | .reservedName found =>
    "Cannot use reserved word '" ++ found.text ++ "' as a variable name"
  | .commentInArguments _ => "Comments are not allowed inside an argument list"
  | .nestedDeclaration _ =>
    "'" ++ declarationWord ++ "' is only allowed at the start of a statement"
  | .notCalled found => "Expected '(' after '" ++ found.text ++ "' to call it"
  | .unclosedCall callee => "Unclosed argument list in call to '" ++ callee.text ++ "'"
  | .unexpected found =>
    "Unexpected token " ++ Text.quoted found.text ++ " (" ++ found.kind.label ++ ")"

/-- The report on a fault; `ending` is the place to name when the tokens end too early. -/
def diagnostic (fault : ParseFault) (ending : Location) : Diagnostic :=
  match fault.token? with
  | some found => Diagnostic.syntactic fault.message (some found.location) (some found.kind.label)
  | none => Diagnostic.syntactic fault.message (some ending) none

end ParseFault

/-- What reading gave, and how many tokens it took. -/
inductive Outcome (α : Type) where
  | read (value : α) (taken : Nat)
  | failed (fault : ParseFault) (taken : Nat)
  deriving Repr

/-- An outcome after `n` more tokens, its value changed by `f`. -/
def Outcome.after (n : Nat) (f : α → β) : Outcome α → Outcome β
  | .read value taken => .read (f value) (n + taken)
  | .failed fault taken => .failed fault (n + taken)

/-- The tokens before the next line end. -/
def restOfLine (tokens : List Token) : List Token := tokens.takeWhile (·.kind != .newline)

/-- The rest of a line is not longer than what is left. -/
theorem length_restOfLine_le (tokens : List Token) :
    (restOfLine tokens).length ≤ tokens.length :=
  (List.takeWhile_prefix _).length_le

/-- A token of a kind at the front, or a fault that says what was needed. -/
def expect (kind : TokenKind) (what : String) : List Token → Outcome Token
  | [] => .failed (.missing what) 0
  | t :: _ => if t.kind = kind then .read t 1 else .failed (.mismatch what t) 0

/-- What is needed after the declaration word. -/
def variableNeeded : String := "a variable name after '" ++ declarationWord ++ "'"

/-- What is needed after the name of a variable. -/
def equalsNeeded (name : String) : String := "'=' after '" ++ name ++ "'"

mutual

/-- One item; a comma gives no node, nor does a line end among arguments. -/
def item (context : Context) (tokens : List Token) : Outcome (Option Tree) :=
  match tokens with
  | [] => .failed .unexpectedEnd 0
  | t :: ts =>
    match t.kind with
    | .comma => .read none 1
    | .comment =>
      if context = .arguments then .failed (.commentInArguments t) 0
      else .read (some (.leaf .comment t.text (some t.location))) 1
    | .commentBlock =>
      if context = .arguments then .failed (.commentInArguments t) 0
      else .read (some (.leaf .commentBlock t.text (some t.location))) 1
    | .newline =>
      if context = .arguments then .read none 1
      else .read (some (.newline (some t.location))) 1
    | .number => .read (some (.leaf .number t.text (some t.location))) 1
    | .string => .read (some (.leaf .string t.text (some t.location))) 1
    | .name =>
      if isBooleanWord t.text then .read (some (.leaf .boolean t.text (some t.location))) 1
      else if t.text = declarationWord then
        if context = .statement then (declaration t ts).after 1 some
        else .failed (.nestedDeclaration t) 0
      else
        match ts with
        | [] => .failed (.notCalled t) 0
        | p :: rest =>
          if p.kind = .parenOpen then
            (arguments t rest).after 2 fun params => some (.call t.text params (some t.location))
          else .failed (.notCalled t) 0
    | _ => .failed (.unexpected t) 0
termination_by (tokens.length, 0)

/-- A declaration after its word `word`. -/
def declaration (word : Token) (tokens : List Token) : Outcome Tree :=
  match tokens with
  | [] => .failed (.missing variableNeeded) 0
  | name :: ts =>
    if name.kind = .name then
      if isReserved name.text then .failed (.reservedName name) 1
      else
        match ts with
        | [] => .failed (.missing (equalsNeeded name.text)) 1
        | e :: rest =>
          if e.kind = .equals then
            match sequence .assignment (restOfLine rest) with
            | .read body _ =>
              .read (.assignment name.text body (some word.location))
                (2 + (restOfLine rest).length)
            | .failed fault _ => .failed fault (2 + (restOfLine rest).length)
          else .failed (.mismatch (equalsNeeded name.text) e) 1
    else .failed (.mismatch variableNeeded name) 0
termination_by (tokens.length, 0)
decreasing_by
  have := length_restOfLine_le rest
  exact Prod.Lex.left _ _ (by simp only [List.length_cons]; omega)

/-- The arguments of a call after its opening parenthesis, with the closing one. -/
def arguments (callee : Token) (tokens : List Token) : Outcome (List Tree) :=
  match tokens with
  | [] => .failed (.unclosedCall callee) 0
  | t :: ts =>
    if t.kind = .parenClose then .read [] 1
    else
      match item .arguments (t :: ts) with
      | .read node taken =>
        (arguments callee (ts.drop (taken - 1))).after taken (node.toList ++ ·)
      | .failed fault taken => .failed fault taken
termination_by (tokens.length, 1)

/-- All items to the end of the tokens. -/
def sequence (context : Context) (tokens : List Token) : Outcome (List Tree) :=
  match tokens with
  | [] => .read [] 0
  | t :: ts =>
    match item context (t :: ts) with
    | .read node taken => (sequence context (ts.drop (taken - 1))).after taken (node.toList ++ ·)
    | .failed fault taken => .failed fault taken
termination_by (tokens.length, 1)

end

/-- The place of the last token, or the start of the source if there is none. -/
def endLocation (file : String) (tokens : List Token) : Location :=
  match tokens.getLast? with
  | some t => t.location
  | none => .start file

/-- A fault with the place that is named when the tokens end too early. -/
structure ParseError where
  fault : ParseFault
  ending : Location
  deriving DecidableEq, Repr

/-- The report on an error. -/
def ParseError.diagnostic (e : ParseError) : Diagnostic := e.fault.diagnostic e.ending

/-- The program that a list of tokens stands for. -/
def parseTokens (file : String) (tokens : List Token) : Except ParseError Tree :=
  match sequence .statement tokens with
  | .read body _ => .ok (.program body (some (.start file)))
  | .failed fault _ => .error ⟨fault, endLocation file tokens⟩

end XoLang
