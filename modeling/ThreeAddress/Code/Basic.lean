import ThreeAddress.Program.Basic

/-!
# Three-address code

Each instruction has at most one operator. An operand is a text of the program, a number or a
variable, or a temporary of the code. As text a temporary is the letter `t` and its number, so it
can look like a variable.
-/

namespace ThreeAddress

/-- What an instruction reads or writes. -/
inductive Operand
  | name (text : String)
  | temp (n : Nat)
deriving Repr, DecidableEq

def Operand.render : Operand → String
  | name text => text
  | temp n => "t" ++ Nat.repr n

inductive Instr
  | declare (name : String) (ty : Ty)
  | copy (dst src : Operand)
  | binary (dst : Operand) (op : BinOp) (left right : Operand)
  | print (name : String)
deriving Repr, DecidableEq

def Instr.render : Instr → String
  | declare name ty => "DECLARE " ++ name ++ " as " ++ ty.keyword
  | copy dst src => dst.render ++ " = " ++ src.render
  | binary dst op left right =>
    dst.render ++ " = " ++ left.render ++ " " ++ op.symbol ++ " " ++ right.render
  | print name => "PRINT " ++ name

end ThreeAddress
