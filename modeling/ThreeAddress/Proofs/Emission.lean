import ThreeAddress.Code.Lower

/-!
# The code of a program without its builder

What lowering adds to a builder depends only on the number of the next temporary: `Expr.codeFrom n`
is the code of an expression whose operators take the temporaries from `n` on, and `Expr.place n`
the operand that holds its value then. Lowering appends exactly this code and takes exactly one
temporary for each operator (`Builder.lower_eq`, `Builder.program_eq`).
-/

namespace ThreeAddress

/-! ### Code by the number of the first temporary -/

def Expr.operators : Expr → Nat
  | number _ | identifier _ => 0
  | binary _ left right => left.operators + right.operators + 1

/-- Where the value of an expression is if its operators take the temporaries from `n` on. The last
of them belongs to the operator at the root. -/
def Expr.place (n : Nat) : Expr → Operand
  | number text => .name text
  | identifier name => .name name
  | binary _ left right => .temp (n + left.operators + right.operators)

theorem Expr.place_binary (n : Nat) (op : BinOp) (left right : Expr) :
    (binary op left right).place n = .temp (n + left.operators + right.operators) := rfl

/-- The code of an expression whose operators take the temporaries from `n` on. -/
def Expr.codeFrom (n : Nat) : Expr → List Instr
  | number _ | identifier _ => []
  | binary op left right =>
    left.codeFrom n ++ right.codeFrom (n + left.operators) ++
      [.binary (.temp (n + left.operators + right.operators)) op (left.place n)
        (right.place (n + left.operators))]

def Stmt.operators : Stmt → Nat
  | declaration _ _ none | print _ => 0
  | declaration _ _ (some value) | assignment _ value => value.operators

def Stmt.codeFrom (n : Nat) : Stmt → List Instr
  | declaration ty name none => [.declare name ty]
  | declaration _ name (some value) => value.codeFrom n ++ [.copy (.name name) (value.place n)]
  | assignment name value => value.codeFrom n ++ [.copy (.name name) (value.place n)]
  | print name => [.print name]

def stmtsCodeFrom (n : Nat) : List Stmt → List Instr
  | [] => []
  | s :: stmts => s.codeFrom n ++ stmtsCodeFrom (n + s.operators) stmts

def stmtsOperators : List Stmt → Nat
  | [] => 0
  | s :: stmts => s.operators + stmtsOperators stmts

/-! ### Lowering -/

namespace Builder

/-- The builder after it has taken `temps` temporaries and added `code`. -/
def extend (b : Builder) (temps : Nat) (code : List Instr) : Builder :=
  ⟨b.nextTemp + temps, b.code ++ code.toArray⟩

@[simp] theorem nextTemp_extend (b : Builder) (temps : Nat) (code : List Instr) :
    (b.extend temps code).nextTemp = b.nextTemp + temps := rfl

theorem extend_zero_nil (b : Builder) : b.extend 0 [] = b := by
  simp [extend]

theorem extend_extend (b : Builder) (temps more : Nat) (code rest : List Instr) :
    (b.extend temps code).extend more rest = b.extend (temps + more) (code ++ rest) := by
  simp [extend, Nat.add_assoc, Array.append_assoc]

theorem emit_eq (b : Builder) (i : Instr) : b.emit i = b.extend 0 [i] := by
  simp [extend, emit]

theorem fresh_eq (b : Builder) : b.fresh = (.temp b.nextTemp, b.extend 1 []) := by
  simp [extend, fresh]

theorem lower_eq (b : Builder) (e : Expr) :
    b.lower e = (e.place b.nextTemp, b.extend e.operators (e.codeFrom b.nextTemp)) := by
  induction e generalizing b with
  | number text => rw [lower, Expr.place, Expr.operators, Expr.codeFrom, extend_zero_nil]
  | identifier name => rw [lower, Expr.place, Expr.operators, Expr.codeFrom, extend_zero_nil]
  | binary op left right ihl ihr =>
    simp only [lower, ihl, ihr, fresh_eq, emit_eq, extend_extend, nextTemp_extend,
      Expr.place_binary, Expr.operators, Expr.codeFrom, List.append_nil, Nat.add_zero,
      Nat.add_assoc, List.append_assoc]

theorem store_eq (b : Builder) (name : String) (value : Expr) :
    b.store name value = b.extend value.operators
      (value.codeFrom b.nextTemp ++ [.copy (.name name) (value.place b.nextTemp)]) := by
  simp only [store, lower_eq, emit_eq, extend_extend, Nat.add_zero]

theorem statement_eq (b : Builder) (s : Stmt) :
    b.statement s = b.extend s.operators (s.codeFrom b.nextTemp) := by
  cases s with
  | declaration ty name init =>
    cases init with
    | none => exact emit_eq b _
    | some value => exact store_eq b name value
  | assignment name value => exact store_eq b name value
  | print name => exact emit_eq b _

theorem program_eq (b : Builder) (p : Program) :
    b.program p = b.extend (stmtsOperators p.stmts) (stmtsCodeFrom b.nextTemp p.stmts) := by
  obtain ⟨stmts⟩ := p
  show stmts.foldl statement b = _
  induction stmts generalizing b with
  | nil => exact (extend_zero_nil b).symm
  | cons s stmts ih =>
    rw [List.foldl_cons, ih, statement_eq, extend_extend, nextTemp_extend]
    rfl

end Builder

theorem Program.code_eq (p : Program) : p.code = stmtsCodeFrom 0 p.stmts := by
  rw [Program.code, Builder.program_eq]
  simp [Builder.extend, Builder.empty]

end ThreeAddress
