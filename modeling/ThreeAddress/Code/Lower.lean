import ThreeAddress.Code.Basic

/-!
# Lowering programs to code

Code is put at the end of what a builder holds, and every operator of the program takes the next
temporary, numbered from zero over the whole program.
-/

namespace ThreeAddress

/-- Code under construction and the number of the next temporary. -/
structure Builder where
  nextTemp : Nat
  code : Array Instr
deriving Repr, DecidableEq

namespace Builder

def empty : Builder := ⟨0, #[]⟩

def emit (b : Builder) (i : Instr) : Builder :=
  { b with code := b.code.push i }

@[simp] theorem toList_code_emit (b : Builder) (i : Instr) :
    (b.emit i).code.toList = b.code.toList ++ [i] :=
  Array.toList_push

@[simp] theorem nextTemp_emit (b : Builder) (i : Instr) : (b.emit i).nextTemp = b.nextTemp := rfl

/-- Takes the next temporary. -/
def fresh (b : Builder) : Operand × Builder :=
  (.temp b.nextTemp, { b with nextTemp := b.nextTemp + 1 })

/-- Adds the code of an expression, the left operand before the right one, and gives the operand
that holds its value. -/
def lower (b : Builder) : Expr → Operand × Builder
  | .number text => (.name text, b)
  | .identifier name => (.name name, b)
  | .binary op left right =>
    let (l, b) := b.lower left
    let (r, b) := b.lower right
    let (dst, b) := b.fresh
    (dst, b.emit (.binary dst op l r))

/-- Adds the code that stores the value of an expression in a variable. -/
def store (b : Builder) (name : String) (value : Expr) : Builder :=
  let (src, b) := b.lower value
  b.emit (.copy (.name name) src)

/-- Adds the code of a statement. An initialized declaration is only a store. -/
def statement (b : Builder) : Stmt → Builder
  | .declaration ty name none => b.emit (.declare name ty)
  | .declaration _ name (some value) => b.store name value
  | .assignment name value => b.store name value
  | .print name => b.emit (.print name)

def program (b : Builder) (p : Program) : Builder :=
  p.stmts.foldl statement b

end Builder

def Program.code (p : Program) : List Instr :=
  (Builder.empty.program p).code.toList

end ThreeAddress
