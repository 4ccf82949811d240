import ThreeAddress.Text.Line
import ThreeAddress.Token.Basic

/-!
# Errors

A text is rejected for its form (`SyntaxError`) or for its use of variables (`SemanticError`). A
report names the kind of error and its cause, and quotes the source line where one is known.
-/

namespace ThreeAddress

/-- A list of tokens is no program: what was expected at position `pos`, and the token found there,
if the tokens did not end before it. -/
structure SyntaxError where
  pos : Nat
  found : Option Token
  expected : String
deriving Repr, DecidableEq

namespace SyntaxError

def label (_ : SyntaxError) : String := "SyntaxError"

/-- What was expected and what was found where. -/
def message (e : SyntaxError) : String :=
  e.expected ++ " Found " ++ e.found.elim "end of input" Token.render ++ " at token " ++
    Nat.repr e.pos ++ "."

def line? (e : SyntaxError) : Option Nat :=
  e.found.map Token.line

end SyntaxError

/-- A statement that uses variables against the rules. -/
inductive SemanticError
  | alreadyDeclared (name : String)
  | undeclared (name : String)
  | uninitializedOperand (operand op : String)
deriving Repr, DecidableEq

namespace SemanticError

def label : SemanticError → String
  | alreadyDeclared _ => "AlreadyDeclaredError"
  | undeclared _ => "UndeclaredVariableError"
  | uninitializedOperand _ _ => "UninitializedOperandError"

def message : SemanticError → String
  | alreadyDeclared name => "Variable '" ++ name ++ "' is already declared."
  | undeclared name => "Variable '" ++ name ++ "' is not declared."
  | uninitializedOperand operand op =>
    "Operand '" ++ operand ++ "' of '" ++ op ++ "' is not initialized."

/-- The variable that the error is about. -/
def name : SemanticError → String
  | alreadyDeclared name | undeclared name => name
  | uninitializedOperand operand _ => operand

end SemanticError

/-- Why a text is not compiled. -/
inductive CompileError
  | malformed (e : SyntaxError)
  | misused (e : SemanticError)
deriving Repr, DecidableEq

namespace CompileError

def label : CompileError → String
  | malformed e => e.label
  | misused e => e.label

/-- The message of the error behind the failure. -/
def cause : CompileError → String
  | malformed e => e.message
  | misused e => e.message

/-- The failure in words: the stage that found it and the cause. -/
def message (e : CompileError) : String :=
  match e with
  | malformed _ => "Syntax error: " ++ e.cause
  | misused _ => "Semantic error: " ++ e.cause

def line? : CompileError → Option Nat
  | malformed e => e.line?
  | misused _ => none

/-- The variable that the error is about. -/
def name? : CompileError → Option String
  | malformed _ => none
  | misused e => some e.name

/-- A source line as reports quote it: its number in a column, then its text up to the last
character that is not blank. -/
def quotedLine (number : Nat) (line : List Char) : String :=
  Text.column number ++ " | " ++ String.ofList (Text.trimEnd line)

/-- The kind of error and its message, and below it the source line, if it is known. -/
def report (source : String) (e : CompileError) : String :=
  let header := e.label ++ ": " ++ e.message
  let quoted := e.line?.bind fun number =>
    (Text.lines source.toList)[number - 1]?.map (quotedLine number)
  header ++ quoted.elim "" ("\n" ++ ·)

end CompileError

end ThreeAddress
