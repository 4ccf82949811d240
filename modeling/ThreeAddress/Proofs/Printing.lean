import ThreeAddress.Proofs.LongestMatch
import ThreeAddress.Proofs.Spelling

/-!
# Printed expressions

`Expr.inorder` writes an expression without brackets, its operands and operators in order and
separated by blanks. The text has the operands and operators of the expression, but not its
grouping: reading it back gives `Expr.regrouped`, which groups the same chain as the grammar does
(`parse_tokenize_assignment`).
-/

namespace ThreeAddress

/-! ### The tokens of a line -/

theorem BinOp.matches_symbol (op : BinOp) : Token.Kind.operator.Matches op.symbol.toList := by
  cases op <;> simp [symbol, Token.Kind.Matches]

theorem lineTokens_lexeme {kind : Token.Kind} {text : String} (h : kind.Matches text.toList)
    (n : Nat) : lineTokens n text.toList = [⟨kind, text, n⟩] := by
  have hlongest : ∀ kind' us, us <+: text.toList ++ [] → Token.Kind.Matches kind' us →
      us.length ≤ text.toList.length := by
    intro kind' us hpre _
    simpa using hpre.length_le
  have hscan := (Segmented.lexeme h hlongest .nil).eq_scanLine
  rw [List.append_nil] at hscan
  simp [lineTokens, ← hscan, Segment.token?]

theorem lineTokens_append_blank (n : Nat) (line rest : List Char) :
    lineTokens n (line ++ ' ' :: rest) = lineTokens n line ++ lineTokens n rest :=
  lineTokens_append_cons (by decide) n line rest

theorem lineTokens_append_semicolon (n : Nat) (line : List Char) :
    lineTokens n (line ++ [';']) = lineTokens n line ++ [⟨.separator, ";", n⟩] := by
  have hbreak : isBreak ';' = true := by decide
  simp only [lineTokens, scanLine_append hbreak, scanLine_cons_of_break hbreak, scanLine_nil,
    List.filterMap_append]
  rfl

/-- The tokens of a text of one line. -/
theorem tokenize_of_not_mem {source : String} (h : '\n' ∉ source.toList) :
    tokenize source = lineTokens 1 source.toList := by
  rw [tokenize_eq]
  cases hs : source.toList with
  | nil => simp [Text.lines, lineTokens]
  | cons c cs =>
    rw [hs] at h
    rw [Text.lines_of_not_mem h (by simp)]
    simp

/-! ### Expressions without brackets -/

namespace Expr

/-- The text of an expression, its operands and operators in order. -/
def inorder : Expr → String
  | number text => text
  | identifier name => name
  | binary op left right => left.inorder ++ " " ++ op.symbol ++ " " ++ right.inorder

/-- The leftmost operand. -/
def first : Expr → Expr
  | binary _ left _ => left.first
  | e => e

/-- The operators in order, each with the operand behind it. -/
def links : Expr → List (BinOp × Expr)
  | binary op left right => left.links ++ (op, right.first) :: right.links
  | _ => []

def isSum : Expr → Bool
  | binary op _ _ => !op.isMultiplicative
  | _ => false

def isOperand : Expr → Bool
  | binary _ _ _ => false
  | _ => true

/-- The expression that has the same operands and operators in order, grouped as the grammar
does. -/
def regrouped (e : Expr) : Expr :=
  assemble id e.first e.links

theorem newline_not_mem_inorder {e : Expr} (he : e.Texts IsNumeral IsName) :
    '\n' ∉ e.inorder.toList := by
  have hnewline : isLexical '\n' = false := by decide
  induction e with
  | number text =>
    obtain ⟨kind, -, hkind⟩ := IsNumeral.matches he
    exact hkind.not_mem hnewline
  | identifier name =>
    have hname : Token.Kind.identifier.Matches name.toList := he
    exact hname.not_mem hnewline
  | binary op left right ihl ihr =>
    simp [inorder, ihl he.1, ihr he.2, op.matches_symbol.not_mem hnewline]

/-- The text of an expression is a chain of its operands and operators. -/
theorem exists_lineTokens_inorder {e : Expr} (he : e.Texts IsNumeral IsName) (n : Nat) :
    ∃ t us, lineTokens n e.inorder.toList = t :: us ∧ DerivesFactor t e.first ∧
      DerivesLinks us e.links := by
  induction e with
  | number text =>
    obtain ⟨kind, hcases, hkind⟩ := IsNumeral.matches he
    refine ⟨⟨kind, text, n⟩, [], lineTokens_lexeme hkind n, ?_, .nil⟩
    rcases hcases with rfl | rfl
    · exact .number rfl
    · exact .floatNumber rfl
  | identifier name =>
    have hname : Token.Kind.identifier.Matches name.toList := he
    exact ⟨⟨.identifier, name, n⟩, [], lineTokens_lexeme hname n, .identifier rfl, .nil⟩
  | binary op left right ihl ihr =>
    obtain ⟨t, us, hleft, hfirst, hlinks⟩ := ihl he.1
    obtain ⟨u, vs, hright, hfirst', hlinks'⟩ := ihr he.2
    have hop := lineTokens_lexeme op.matches_symbol n
    refine ⟨t, us ++ ⟨.operator, op.symbol, n⟩ :: u :: vs, ?_, hfirst,
      hlinks.append (.cons (by simp) hfirst' hlinks')⟩
    have htext : (binary op left right).inorder.toList =
        left.inorder.toList ++ ' ' :: (op.symbol.toList ++ ' ' :: right.inorder.toList) := by
      simp [inorder]
    rw [htext, lineTokens_append_blank, lineTokens_append_blank, hleft, hop, hright]
    rfl

end Expr

/-- An assignment of a printed expression reads as one of the regrouped expression. -/
theorem parse_tokenize_assignment {name : String} {e : Expr} (hname : IsName name)
    (he : e.Texts IsNumeral IsName) :
    parse (tokenize (name ++ " = " ++ e.inorder ++ ";")) =
      .ok ⟨[.assignment name e.regrouped]⟩ := by
  have htext : (name ++ " = " ++ e.inorder ++ ";").toList =
      name.toList ++ ' ' :: ("=".toList ++ ' ' :: (e.inorder.toList ++ [';'])) := by
    simp
  have hnewline : '\n' ∉ (name ++ " = " ++ e.inorder ++ ";").toList := by
    have hname' : '\n' ∉ name.toList := Expr.newline_not_mem_inorder (e := .identifier name) hname
    rw [htext]
    simp [hname', Expr.newline_not_mem_inorder he]
  have hassign : Token.Kind.assignment.Matches "=".toList := rfl
  obtain ⟨t, us, htokens, hfirst, hlinks⟩ := Expr.exists_lineTokens_inorder he 1
  have hexpr : DerivesExpr (t :: us) e.regrouped :=
    derivesExpr_iff.2 ⟨t, us, e.first, e.links, rfl, hfirst, hlinks, rfl⟩
  rw [tokenize_of_not_mem hnewline, htext, lineTokens_append_blank, lineTokens_append_blank,
    lineTokens_append_semicolon, lineTokens_lexeme hname, lineTokens_lexeme hassign, htokens,
    parse_eq_ok_iff]
  have hstmt : DerivesStmt (⟨.identifier, name, 1⟩ :: ⟨.assignment, "=", 1⟩ ::
      ((t :: us) ++ [⟨.separator, ";", 1⟩])) (.assignment name e.regrouped) :=
    .assignment rfl rfl hexpr (by decide)
  have hstmts := DerivesStmts.cons hstmt .nil
  rw [List.append_nil] at hstmts
  exact hstmts

end ThreeAddress
