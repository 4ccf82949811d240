import ThreeAddress.Compile
import ThreeAddress.Proofs.Simulation
import ThreeAddress.Proofs.Table

/-!
# Analysis agrees with the code

Over the domain `symbolic` a value is a text: a numeral is its own text, an operator joins two
texts, and a variable that is declared but not initialized holds nothing. A program that passes the
analysis runs over it without failing, and ends with the contents that the symbol table records
(`SymbolTable.exists_run_symbolic`). As code runs like its program, the code of a compiled text
leaves in the variables exactly what its symbol table says.
-/

namespace ThreeAddress

/-! ### Texts as values -/

/-- Texts in place of values; the content of a variable that is not initialized is `none`. An
operator joins the texts of its operands and needs both. -/
def symbolic : Domain (Option String) where
  numeral text := some text
  apply op
    | some l, some r => some (some (l ++ " " ++ op.symbol ++ " " ++ r))
    | _, _ => none
  declare name _ σ := σ.set name none

namespace SymbolTable

variable {t : SymbolTable} {σ : Store (Option String)}

/-- The store holds the text of every variable of the table, and nothing else. -/
def Mirrors (t : SymbolTable) (σ : Store (Option String)) : Prop :=
  ∀ name, σ name = (t.valueOf name).map Value.text?

theorem Mirrors.set {t' : SymbolTable} {name : String} {v : Value} (h : t.Mirrors σ)
    (hval : ∀ x, t'.valueOf x = if x = name then some v else t.valueOf x) :
    t'.Mirrors (σ.set name v.text?) := by
  intro x
  rw [hval, Store.set]
  split
  · rfl
  · exact h x

theorem toOption_combine (op : BinOp) (left right : Expr) (l r : Value) :
    (Value.combine op left right l r).toOption.map Value.text? =
      symbolic.apply op l.text? r.text? := by
  unfold Value.combine
  cases l.text? <;> cases r.text? <;> rfl

/-- The analysis gives an expression the text that evaluating it gives, or both fail. -/
theorem Mirrors.eval (h : t.Mirrors σ) (e : Expr) :
    e.eval symbolic σ = (t.evaluate e).toOption.map Value.text? := by
  induction e with
  | number text => rfl
  | identifier name =>
    rw [Expr.eval, h, valueOf, evaluate]
    cases t.get? name <;> rfl
  | binary op left right ihl ihr =>
    rw [Expr.eval, ihl, ihr, evaluate]
    cases t.evaluate left with
    | error e => rfl
    | ok l =>
      cases t.evaluate right with
      | error e => rfl
      | ok r => exact (toOption_combine op left right l r).symm

/-- A statement that passes runs without failing, and its effect on the table is what the run does
to the store. -/
theorem Passes.exists_exec_symbolic {s : Stmt} {effect : Effect} (hσ : t.Mirrors σ)
    (h : t.Passes s effect) :
    ∃ σ', (s.exec symbolic σ).final = some σ' ∧ (effect.apply t).Mirrors σ' := by
  cases h with
  | @declaration ty name hdef =>
    exact ⟨σ.set name none, rfl, hσ.set fun x => valueOf_apply_declare hdef⟩
  | @initialized ty name e v hdef he =>
    refine ⟨σ.set name v.text?, ?_, hσ.set fun x => valueOf_apply_declare hdef⟩
    rw [Stmt.exec, hσ.eval, he]
    rfl
  | @assignment name e v hdef he =>
    refine ⟨σ.set name v.text?, ?_, hσ.set fun x => valueOf_apply_assign hdef⟩
    rw [Stmt.exec, hσ.eval, he]
    rfl
  | @print name hdef =>
    obtain ⟨v, hv⟩ := Option.isSome_iff_exists.1 ((t.isSome_valueOf name).trans hdef)
    refine ⟨σ, ?_, hσ⟩
    rw [Stmt.exec, hσ name, hv]
    rfl

theorem exists_run_symbolic {stmts : List Stmt} (hσ : t.Mirrors σ)
    (h : (t.analyze stmts).fault = none) :
    ∃ σ', (Ending.run (Stmt.exec symbolic) σ stmts).final = some σ' ∧
      (t.analyze stmts).table.Mirrors σ' := by
  induction stmts generalizing t σ with
  | nil => exact ⟨σ, rfl, hσ⟩
  | cons s stmts ih =>
    obtain ⟨effect, hs, hrest⟩ := fault_analyze_cons_eq_none_iff.1 h
    obtain ⟨σ₁, hexec₁, hσ₁⟩ := hs.exists_exec_symbolic hσ
    rw [table_analyze_cons hs, Ending.run_cons, Ending.final_andThen, hexec₁]
    exact ih hσ₁ hrest

theorem Mirrors.isSome_iff (h : t.Mirrors σ) (name : String) :
    (σ name).isSome = true ↔ name ∈ t.toList.map Entry.name := by
  rw [h, Option.isSome_map, isSome_valueOf, isDefined_iff_mem]

theorem Mirrors.of_mem (h : t.Mirrors σ) {e : Entry} (he : e ∈ t.toList) :
    σ e.name = some e.value.text? := by
  rw [h, valueOf_of_mem he, Option.map_some]

end SymbolTable

/-! ### Compiled code -/

def Machine.blank {V : Type} : Machine V := ⟨fun _ => none, fun _ => none⟩

/-- Run over texts, the code of a compiled text does not fail. At the end the variables that have a
content are those of the symbol table, each with the text of its value, and with none exactly if
the value is uninitialized. -/
theorem exec_symbolic_of_compile {source : String} {out : Compilation}
    (h : compile source = .ok out) :
    ∃ m, (Machine.blank.exec symbolic out.code).final = some m ∧
      (∀ name, (m.vars name).isSome = true ↔ name ∈ out.symbols.toList.map Entry.name) ∧
      ∀ e ∈ out.symbols.toList, m.vars e.name = some e.value.text? ∧
        (m.vars e.name = some none ↔ e.value = .uninitialized) := by
  obtain ⟨p, hp, hfault, rfl⟩ := compile_eq_ok_iff.1 h
  have hempty : SymbolTable.empty.Mirrors fun _ => none := by simp [SymbolTable.Mirrors]
  obtain ⟨σ, hrun, hσ⟩ := SymbolTable.exists_run_symbolic hempty hfault
  have hcode := congrArg Ending.final
    (exec_code (D := symbolic) (spelled_of_parse hp) Machine.blank)
  obtain ⟨m, hm, rfl⟩ := Option.map_eq_some_iff.1 (hcode.trans hrun)
  refine ⟨m, hm, hσ.isSome_iff, fun e he => ⟨hσ.of_mem he, ?_⟩⟩
  rw [hσ.of_mem he]
  cases e.value <;> simp [Value.text?]

/-- Variable `b` is initialized at first, and then a copy of `c`, which is not. -/
theorem exec_symbolic_of_compile_copy :
    ∃ out, compile "int a; int b = 2; a = b * b + 1; int c; b = c;" = .ok out ∧
      (out.symbols.toList.map fun e => (e.name, e.value.text?)) =
        [("a", some "2 * 2 + 1"), ("b", none), ("c", none)] ∧
      ∃ m, (Machine.blank.exec symbolic out.code).final = some m ∧
        (∀ name, (m.vars name).isSome = true ↔ name ∈ out.symbols.toList.map Entry.name) ∧
        ∀ e ∈ out.symbols.toList, m.vars e.name = some e.value.text? ∧
          (m.vars e.name = some none ↔ e.value = .uninitialized) := by
  have hp : parse (tokenize "int a; int b = 2; a = b * b + 1; int c; b = c;") = .ok
      ⟨[.declaration .int "a" none, .declaration .int "b" (some (.number "2")),
        .assignment "a" (.binary .add (.binary .mul (.identifier "b") (.identifier "b"))
          (.number "1")),
        .declaration .int "c" none, .assignment "b" (.identifier "c")]⟩ := by
    decide +kernel
  have hout := compile_eq_ok_iff.2 ⟨_, hp, ?_, rfl⟩
  refine ⟨_, hout, ?_, exec_symbolic_of_compile hout⟩
  all_goals
    simp [SymbolTable.analyze, SymbolTable.check, SymbolTable.evaluate, SymbolTable.empty,
      SymbolTable.declare?, SymbolTable.assign?, SymbolTable.isDefined, SymbolTable.get?,
      SymbolTable.toList, Effect.apply, Value.combine, Value.text?, BinOp.symbol, Except.map,
      bind, Except.bind, Std.HashMap.getElem_insert]

end ThreeAddress
