/-!
# Tokens

A token is a lexeme with its category and the line it stands on. Its category need not agree with
its text: the parser looks at the category first and reads lists of any tokens.
-/

namespace ThreeAddress

inductive Token.Kind
  | keyword
  | identifier
  | floatNumber
  | number
  | assignment
  | operator
  | separator
deriving Repr, DecidableEq

def Token.Kind.label : Token.Kind → String
  | keyword => "KEYWORD"
  | identifier => "IDENTIFIER"
  | floatNumber => "FLOAT_NUMBER"
  | number => "NUMBER"
  | assignment => "ASSIGNMENT"
  | operator => "OPERATOR"
  | separator => "SEPARATOR"

/-- A lexeme of category `kind` on line `line`, counted from one. -/
structure Token where
  kind : Token.Kind
  text : String
  line : Nat
deriving Repr, DecidableEq

namespace Token

/-- The token as messages show it: its category, then its text in single quotation marks. -/
def render (t : Token) : String :=
  t.kind.label ++ " '" ++ t.text ++ "'"

def is (t : Token) (kind : Kind) (text : String) : Bool :=
  t.kind == kind && t.text == text

@[simp] theorem is_eq_true_iff {t : Token} {kind : Kind} {text : String} :
    t.is kind text = true ↔ t.kind = kind ∧ t.text = text := by
  simp [is]

end Token

end ThreeAddress
