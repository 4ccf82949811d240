import ThreeAddress.Error
import ThreeAddress.SymbolTable

/-!
# Analysis

A variable is declared once, before it is used, and an operand of an arithmetic operator has to be
initialized. Analysis checks the statements one after the other against the symbol table and
applies what each does to it. A failing statement does nothing, and ends the analysis.
-/

namespace ThreeAddress

/-! ### Expressions -/

/-- How an error names an operand. -/
def Expr.operandName : Expr → String
  | number text => text
  | identifier name => name
  | binary op _ _ => "<" ++ op.symbol ++ " expression>"

/-- The value of `left op right`, given those of its operands. -/
def Value.combine (op : BinOp) (left right : Expr) (l r : Value) : Except SemanticError Value :=
  match l.text?, r.text? with
  | some l, some r => .ok (.composed (l ++ " " ++ op.symbol ++ " " ++ r))
  | none, _ => .error (.uninitializedOperand left.operandName op.symbol)
  | some _, none => .error (.uninitializedOperand right.operandName op.symbol)

/-- The value of an expression, the left operand before the right one. -/
def SymbolTable.evaluate (t : SymbolTable) : Expr → Except SemanticError Value
  | .number text => .ok (.literal text)
  | .identifier name =>
    match t.get? name with
    | some entry => .ok entry.value
    | none => .error (.undeclared name)
  | .binary op left right => do
    let l ← t.evaluate left
    let r ← t.evaluate right
    Value.combine op left right l r

/-! ### Statements -/

inductive Effect
  | declare (name : String) (ty : Ty) (value : Value)
  | assign (name : String) (value : Value)
  | keep
deriving Repr, DecidableEq

/-- The table after the effect; one that the table refuses leaves it as it is. -/
def Effect.apply (t : SymbolTable) : Effect → SymbolTable
  | declare name ty value => (t.declare? name ty value).getD t
  | assign name value => (t.assign? name value).getD t
  | keep => t

/-- Checks a statement against the table: its effect, or the rule that it breaks. -/
def SymbolTable.check (t : SymbolTable) : Stmt → Except SemanticError Effect
  | .declaration ty name init =>
    if t.isDefined name then .error (.alreadyDeclared name)
    else
      match init with
      | none => .ok (.declare name ty .uninitialized)
      | some e => (t.evaluate e).map (.declare name ty ·)
  | .assignment name value =>
    if t.isDefined name then (t.evaluate value).map (.assign name ·)
    else .error (.undeclared name)
  | .print name => if t.isDefined name then .ok .keep else .error (.undeclared name)

def SymbolTable.step (t : SymbolTable) (s : Stmt) : Except SemanticError SymbolTable :=
  (t.check s).map (Effect.apply t)

/-! ### Programs -/

/-- The course of an analysis: the effects of the statements that pass, the table they lead to, and
the fault that ended it, if any. -/
structure Analysis where
  effects : List Effect
  table : SymbolTable
  fault : Option SemanticError

def SymbolTable.analyze (t : SymbolTable) : List Stmt → Analysis
  | [] => ⟨[], t, none⟩
  | s :: rest =>
    match t.check s with
    | .error e => ⟨[], t, some e⟩
    | .ok effect =>
      let after := (effect.apply t).analyze rest
      { after with effects := effect :: after.effects }

end ThreeAddress
