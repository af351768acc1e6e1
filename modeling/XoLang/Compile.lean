import XoLang.JavaScript
import XoLang.Token.Lexer
import XoLang.Tree.Parser

/-!
# Compiling sources

From a source to its tokens, its tree and its JavaScript text.
-/

namespace XoLang

/-- Why a source cannot be compiled. -/
inductive CompileError where
  | lexical (error : LexError)
  | syntactic (error : ParseError)
  /-- A node of the tree has no rendering. -/
  | unsupported (node : Tree)
  deriving Repr

/-- The report on a node without a rendering. -/
def unsupportedDiagnostic (node : Tree) : Diagnostic where
  kind := .internal
  message := "No emitter rule for node kind '" ++ node.label ++ "'"
  location := node.location
  details := []

/-- The report on an error. -/
def CompileError.diagnostic : CompileError → Diagnostic
  | .lexical error => error.diagnostic
  | .syntactic error => error.diagnostic
  | .unsupported node => unsupportedDiagnostic node

/-- The tree of a source. -/
def parse (delimiter : Delimiter) (file source : String) : Except CompileError Tree :=
  match tokenize delimiter file source with
  | .error error => .error (.lexical error)
  | .ok tokens =>
    match parseTokens file tokens with
    | .error error => .error (.syntactic error)
    | .ok tree => .ok tree

/-- The JavaScript text of a source. -/
def compile (delimiter : Delimiter) (file source : String) : Except CompileError String :=
  match parse delimiter file source with
  | .error error => .error error
  | .ok tree =>
    match JavaScript.emit tree with
    | .error node => .error (.unsupported node)
    | .ok code => .ok code

end XoLang
