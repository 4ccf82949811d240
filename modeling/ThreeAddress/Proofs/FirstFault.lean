import ThreeAddress.Proofs.Initialization
import ThreeAddress.Proofs.Session

/-!
# The first fault of an expression

Whether a node of an expression is at fault can be seen from the node and its operands alone: a
variable is at fault if it is not declared, and an operator if one of its operands is a variable
without a value. Evaluation fails exactly if some node is at fault, and then with the error of the
first one in postorder (`SymbolTable.findSome?_postorder`). So an undeclared variable in the right
operand comes before a left operand without a value, and the operand that an error names is always
a variable: only a variable can be evaluated without giving a text (`vacant?_of_evaluate`).
-/

namespace ThreeAddress

/-! ### Nodes and their faults -/

/-- The nodes of an expression, each behind those of its left and then of its right operand. -/
def Expr.postorder : Expr → List Expr
  | number text => [number text]
  | identifier name => [identifier name]
  | binary op left right => left.postorder ++ right.postorder ++ [binary op left right]

namespace SymbolTable

variable {t : SymbolTable} {e : Expr} {err : SemanticError}

/-- The name of an operand that is a variable without a value. -/
def vacant? (t : SymbolTable) : Expr → Option String
  | .identifier name => if t.valueOf name = some .uninitialized then some name else none
  | _ => none

/-- The node is at fault, whatever holds of the nodes below it. -/
def Faulty (t : SymbolTable) : Expr → Prop
  | .number _ => False
  | .identifier name => t.isDefined name = false
  | .binary _ left right =>
    ∃ name, t.valueOf name = some .uninitialized ∧
      (left = .identifier name ∨ right = .identifier name)

/-- The error of a node at fault. Of two operands without a value the left one is named. -/
def fault? (t : SymbolTable) : Expr → Option SemanticError
  | .number _ => none
  | .identifier name => if t.isDefined name then none else some (.undeclared name)
  | .binary op left right =>
    ((t.vacant? left).or (t.vacant? right)).map (.uninitializedOperand · op.symbol)

theorem vacant?_eq_some_iff {name : String} :
    t.vacant? e = some name ↔ e = .identifier name ∧ t.valueOf name = some .uninitialized := by
  cases e with
  | number text => simp [vacant?]
  | identifier x =>
    rw [vacant?]
    constructor
    · intro h
      split at h
      · next hx =>
        cases h
        exact ⟨rfl, hx⟩
      · cases h
    · rintro ⟨⟨⟩, hx⟩
      rw [if_pos hx]
  | binary op left right => simp [vacant?]

theorem faulty_iff : t.Faulty e ↔ ∃ err, t.fault? e = some err := by
  cases e with
  | number text => simp [Faulty, fault?]
  | identifier x => cases h : t.isDefined x <;> simp [Faulty, fault?, h]
  | binary op left right =>
    rw [← Option.isSome_iff_exists, fault?, Option.isSome_map, Option.isSome_or,
      Bool.or_eq_true, Option.isSome_iff_exists, Option.isSome_iff_exists, ← exists_or]
    refine exists_congr fun x => ?_
    rw [vacant?_eq_some_iff, vacant?_eq_some_iff, ← or_and_right, and_comm]

/-! ### Evaluation -/

/-- What is evaluated without a text is a variable without a value, and an error names it so. -/
theorem vacant?_of_evaluate {v : Value} (h : t.evaluate e = .ok v) :
    t.vacant? e = if v.text? = none then some e.operandName else none := by
  cases e with
  | number text =>
    cases h
    rfl
  | identifier x =>
    rw [vacant?, evaluate_identifier_eq_ok_iff.1 h]
    cases v <;> simp [Value.text?, Expr.operandName]
  | binary op left right =>
    obtain ⟨l, r, -, -, h⟩ := evaluate_binary_eq_ok_iff.1 h
    obtain ⟨a, b, -, -, rfl⟩ := combine_eq_ok_iff.1 h
    rfl

theorem fault?_binary_of_evaluate {op : BinOp} {left right : Expr} {l r : Value}
    (hl : t.evaluate left = .ok l) (hr : t.evaluate right = .ok r) :
    t.fault? (.binary op left right) =
      match Value.combine op left right l r with
      | .error err => some err
      | .ok _ => none := by
  rw [fault?, vacant?_of_evaluate hl, vacant?_of_evaluate hr]
  unfold Value.combine
  cases l.text? <;> cases r.text? <;> rfl

/-- The first fault in postorder is what evaluation fails with. The operands come first in both, so
the operator itself is looked at only once both of them have values. -/
theorem findSome?_postorder (t : SymbolTable) (e : Expr) :
    e.postorder.findSome? t.fault? =
      match t.evaluate e with
      | .error err => some err
      | .ok _ => none := by
  induction e with
  | number text => rfl
  | identifier x =>
    have hdef := t.isSome_get? x
    rw [Expr.postorder, List.findSome?_singleton, fault?, ← hdef, evaluate]
    cases t.get? x <;> rfl
  | binary op left right ihl ihr =>
    rw [Expr.postorder, List.findSome?_append, List.findSome?_append, List.findSome?_singleton,
      ihl, ihr, evaluate]
    cases hl : t.evaluate left with
    | error f => rfl
    | ok l =>
      cases hr : t.evaluate right with
      | error f => rfl
      | ok r => exact fault?_binary_of_evaluate hl hr

theorem evaluate_eq_error_iff :
    t.evaluate e = .error err ↔ e.postorder.findSome? t.fault? = some err := by
  rw [findSome?_postorder]
  cases t.evaluate e <;> simp

theorem evaluate_eq_error_iff_first :
    t.evaluate e = .error err ↔ ∃ before node after, e.postorder = before ++ node :: after ∧
      (∀ n ∈ before, ¬ t.Faulty n) ∧ t.Faulty node ∧ t.fault? node = some err := by
  rw [evaluate_eq_error_iff, List.findSome?_eq_some_iff]
  refine exists_congr fun before => exists_congr fun node => exists_congr fun after => ?_
  have hbefore : (∀ n ∈ before, t.fault? n = none) ↔ ∀ n ∈ before, ¬ t.Faulty n := by
    simp [faulty_iff, Option.eq_none_iff_forall_ne_some]
  have hnode : t.fault? node = some err → t.Faulty node := fun h => faulty_iff.2 ⟨err, h⟩
  rw [hbefore]
  constructor
  · rintro ⟨hsplit, hfault, hnone⟩
    exact ⟨hsplit, hnone, hnode hfault, hfault⟩
  · rintro ⟨hsplit, hnone, -, hfault⟩
    exact ⟨hsplit, hfault, hnone⟩

/-- An operand is reported only where it is a variable without a value. -/
theorem vacant_of_fault? {operand op : String}
    (h : t.fault? e = some (.uninitializedOperand operand op)) :
    t.valueOf operand = some .uninitialized ∧ ∃ o left right, e = .binary o left right ∧
      op = o.symbol ∧ (left = .identifier operand ∨ right = .identifier operand) := by
  cases e with
  | number text => cases h
  | identifier x =>
    rw [fault?] at h
    split at h <;> cases h
  | binary o left right =>
    obtain ⟨x, hx, herr⟩ := Option.map_eq_some_iff.1 h
    cases herr
    rcases Option.or_eq_some_iff.1 hx with hx | ⟨-, hx⟩
    · obtain ⟨hleft, hvalue⟩ := vacant?_eq_some_iff.1 hx
      exact ⟨hvalue, o, left, right, rfl, rfl, .inl hleft⟩
    · obtain ⟨hright, hvalue⟩ := vacant?_eq_some_iff.1 hx
      exact ⟨hvalue, o, left, right, rfl, rfl, .inr hright⟩

end SymbolTable

/-- Over every table that a session leads to, evaluation fails exactly if a node of the expression
is at fault, and its error is that of the first node at fault in postorder. An operand that an error
calls not initialized is a declared variable without a value, and stands as such beside the operator
that the error names. -/
theorem evaluate_reports_first_fault (actions : List Action) (e : Expr) :
    let t := (session SymbolTable.perform .empty actions).2
    ((∃ err, t.evaluate e = .error err) ↔ ∃ node ∈ e.postorder, t.Faulty node) ∧
      (∀ err, t.evaluate e = .error err ↔ ∃ before node after,
        e.postorder = before ++ node :: after ∧ (∀ n ∈ before, ¬ t.Faulty n) ∧ t.Faulty node ∧
          t.fault? node = some err) ∧
      ∀ operand op, t.evaluate e = .error (.uninitializedOperand operand op) →
        t.isDefined operand = true ∧ t.valueOf operand = some .uninitialized ∧
          ∃ o left right, .binary o left right ∈ e.postorder ∧ op = o.symbol ∧
            (left = .identifier operand ∨ right = .identifier operand) := by
  intro t
  refine ⟨?_, fun err => SymbolTable.evaluate_eq_error_iff_first, ?_⟩
  · simp only [SymbolTable.faulty_iff, SymbolTable.evaluate_eq_error_iff]
    rw [← Option.isSome_iff_exists, List.findSome?_isSome_iff]
    simp only [Option.isSome_iff_exists]
  · intro operand op h
    obtain ⟨before, node, after, hsplit, -, -, hfault⟩ :=
      SymbolTable.evaluate_eq_error_iff_first.1 h
    obtain ⟨hvalue, o, left, right, rfl, hop, hoperand⟩ := SymbolTable.vacant_of_fault? hfault
    refine ⟨?_, hvalue, o, left, right, by simp [hsplit], hop, hoperand⟩
    rw [← t.isSome_valueOf, hvalue]
    rfl

end ThreeAddress
