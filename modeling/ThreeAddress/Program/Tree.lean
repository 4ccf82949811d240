import ThreeAddress.Text.Line
import ThreeAddress.Program.Basic

/-!
# The tree of a program as text

One node a line, a tag and what the node holds, with the children below it and two columns
further in.
-/

namespace ThreeAddress

/-- A line of the tree, `depth` levels below the root. -/
def treeLine (depth : Nat) (tag content : String) : String :=
  String.ofList (List.replicate (2 * depth) ' ') ++ tag ++ ": " ++ content

/-- The lines of an expression whose root is `depth` levels down. -/
def Expr.treeLines (depth : Nat) : Expr → List String
  | number text => [treeLine depth "Number" text]
  | identifier name => [treeLine depth "Identifier" name]
  | binary op left right =>
    treeLine depth "BinaryOp" op.symbol ::
      (left.treeLines (depth + 1) ++ right.treeLines (depth + 1))

/-- The lines of a statement, which stands one level below the root of the program. -/
def Stmt.treeLines : Stmt → List String
  | declaration ty name init =>
    treeLine 1 "Declaration" (ty.keyword ++ " " ++ name) ::
      init.elim [] (Expr.treeLines 2)
  | assignment name value => treeLine 1 "Assignment" name :: value.treeLines 2
  | print name => [treeLine 1 "Print" name]

def Program.tree (p : Program) : String :=
  Text.unlines ("Program" :: p.stmts.flatMap Stmt.treeLines)

end ThreeAddress
