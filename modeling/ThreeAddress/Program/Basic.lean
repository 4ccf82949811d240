/-!
# Programs

The language has no control flow: a program is a list of declarations, assignments and print
statements over arithmetic expressions. Numbers keep the text they are written with.
-/

namespace ThreeAddress

inductive Ty
  | int
  | float
deriving Repr, DecidableEq

namespace Ty

def keyword : Ty → String
  | int => "int"
  | float => "float"

/-- The type that a keyword names. -/
def ofKeyword? (s : String) : Option Ty :=
  if s = "int" then some int else if s = "float" then some float else none

@[simp] theorem ofKeyword?_keyword (ty : Ty) : ofKeyword? ty.keyword = some ty := by
  cases ty <;> decide

theorem ofKeyword?_eq_some_iff {s : String} {ty : Ty} :
    ofKeyword? s = some ty ↔ s = ty.keyword := by
  constructor
  · unfold ofKeyword?
    split
    · rintro ⟨⟩; assumption
    · split
      · rintro ⟨⟩; assumption
      · rintro ⟨⟩
  · rintro rfl; exact ofKeyword?_keyword ty

end Ty

inductive BinOp
  | add
  | sub
  | mul
  | div
deriving Repr, DecidableEq

namespace BinOp

def symbol : BinOp → String
  | add => "+"
  | sub => "-"
  | mul => "*"
  | div => "/"

/-- The operator that a sign stands for. -/
def ofSymbol? (s : String) : Option BinOp :=
  if s = "+" then some add
  else if s = "-" then some sub
  else if s = "*" then some mul
  else if s = "/" then some div
  else none

@[simp] theorem ofSymbol?_symbol (op : BinOp) : ofSymbol? op.symbol = some op := by
  cases op <;> decide

theorem ofSymbol?_eq_some_iff {s : String} {op : BinOp} :
    ofSymbol? s = some op ↔ s = op.symbol := by
  constructor
  · unfold ofSymbol?
    repeat' split
    all_goals first | (rintro ⟨⟩; assumption) | rintro ⟨⟩
  · rintro rfl; exact ofSymbol?_symbol op

/-- Whether the operator binds tighter than addition. -/
def isMultiplicative : BinOp → Bool
  | mul | div => true
  | add | sub => false

end BinOp

inductive Expr
  | number (text : String)
  | identifier (name : String)
  | binary (op : BinOp) (left right : Expr)
deriving Repr, DecidableEq

inductive Stmt
  | declaration (ty : Ty) (name : String) (init : Option Expr)
  | assignment (name : String) (value : Expr)
  | print (name : String)
deriving Repr, DecidableEq

structure Program where
  stmts : List Stmt
deriving Repr, DecidableEq

end ThreeAddress
