import ThreeAddress.Proofs.Concatenation
import ThreeAddress.Proofs.LogRecords

/-!
# Analysis in place

`Edit` is the analysis as a procedure on one symbol table: it looks at the table, changes it and
stops at an error, whatever state the table is in then. It does what the analysis does that makes a
new table (`evaluate_run`, `statement_run`, `program_run`). So an error leaves nothing half done: a
statement that fails leaves the table alone, and a program that fails leaves the table of the
statements in front of the one it fails at. A statement that passes adds one entry (`Adds`) or
changes the value of one (`Overwrites`), and the table never refuses the change.
-/

namespace ThreeAddress

/-- Work on one symbol table. An error leaves the table as it is when the error comes up. -/
abbrev Edit := EStateM SemanticError SymbolTable

namespace Edit

/-! ### Procedures -/

/-- Makes a change, unless the table refuses it, and says whether the table took it. -/
def change (f : SymbolTable → Option SymbolTable) : Edit Bool := do
  match f (← get) with
  | some after =>
    set after
    return true
  | none => return false

def declare (name : String) (ty : Ty) (value : Value) : Edit Bool :=
  change (·.declare? name ty value)

def assign (name : String) (value : Value) : Edit Bool :=
  change (·.assign? name value)

def evaluate : Expr → Edit Value
  | .number text => return .literal text
  | .identifier name => do
    match (← get).get? name with
    | some entry => return entry.value
    | none => throw (.undeclared name)
  | .binary op left right => do
    let l ← evaluate left
    let r ← evaluate right
    match Value.combine op left right l r with
    | .ok value => return value
    | .error e => throw e

/-- Checks a statement and makes its change. Gives what the table said to the change, if there was
one to make. -/
def statement : Stmt → Edit (Option Bool)
  | .declaration ty name init => do
    if (← get).isDefined name then throw (.alreadyDeclared name)
    let value ← init.elim (pure .uninitialized) evaluate
    let taken ← declare name ty value
    return some taken
  | .assignment name e => do
    if !(← get).isDefined name then throw (.undeclared name)
    let value ← evaluate e
    let taken ← assign name value
    return some taken
  | .print name => do
    if !(← get).isDefined name then throw (.undeclared name)
    return none

/-- One statement after the other, whatever the table says to their changes. -/
def program : List Stmt → Edit Unit
  | [] => return
  | s :: rest => do
    let _ ← statement s
    program rest

/-! ### The same analysis -/

variable {t : SymbolTable} {name : String}

theorem evaluate_run (t : SymbolTable) (e : Expr) :
    (evaluate e).run t =
      match t.evaluate e with
      | .ok value => .ok value t
      | .error f => .error f t := by
  induction e with
  | number text => rfl
  | identifier name =>
    simp only [evaluate, SymbolTable.evaluate, EStateM.run_bind, EStateM.run_get]
    cases t.get? name <;> rfl
  | binary op left right ihl ihr =>
    simp only [evaluate, SymbolTable.evaluate, EStateM.run_bind, ihl]
    cases t.evaluate left with
    | error f => rfl
    | ok l =>
      simp only [ihr]
      cases t.evaluate right with
      | error f => rfl
      | ok r =>
        simp only [bind, Except.bind]
        cases Value.combine op left right l r <;> rfl

theorem change_run {f : SymbolTable → Option SymbolTable} {after : SymbolTable}
    (h : f t = some after) : (change f).run t = .ok true after := by
  simp only [change, EStateM.run_bind, EStateM.run_get, h]
  rfl

theorem declare_run (hdef : t.isDefined name = false) (ty : Ty) (value : Value) :
    (declare name ty value).run t = .ok true ((Effect.declare name ty value).apply t) := by
  obtain ⟨after, h⟩ := SymbolTable.exists_declare? hdef ty value
  rw [Effect.apply, h]
  exact change_run h

theorem assign_run (hdef : t.isDefined name = true) (value : Value) :
    (assign name value).run t = .ok true ((Effect.assign name value).apply t) := by
  obtain ⟨after, h⟩ := SymbolTable.exists_assign? hdef value
  rw [Effect.apply, h]
  exact change_run h

/-- What the table says to the effect of a statement that passes. -/
def answer? : Effect → Option Bool
  | .declare _ _ _ | .assign _ _ => some true
  | .keep => none

theorem statement_run (t : SymbolTable) (s : Stmt) :
    (statement s).run t =
      match t.check s with
      | .ok effect => .ok (answer? effect) (effect.apply t)
      | .error f => .error f t := by
  cases s with
  | declaration ty name init =>
    simp only [statement, SymbolTable.check, EStateM.run_bind, EStateM.run_get]
    cases hdef : t.isDefined name with
    | true => rfl
    | false =>
      have hdeclare := declare_run hdef ty
      cases init with
      | none =>
        simp only [Bool.false_eq_true, ↓reduceIte, EStateM.run_bind, EStateM.run_pure,
          Option.elim_none, hdeclare, answer?]
      | some e =>
        simp only [Bool.false_eq_true, ↓reduceIte, EStateM.run_bind, EStateM.run_pure,
          Option.elim_some, evaluate_run]
        cases t.evaluate e with
        | error f => rfl
        | ok v => simp only [hdeclare, Except.map, answer?]
  | assignment name e =>
    simp only [statement, SymbolTable.check, EStateM.run_bind, EStateM.run_get]
    cases hdef : t.isDefined name with
    | false => rfl
    | true =>
      have hassign := assign_run hdef
      simp only [Bool.not_true, Bool.false_eq_true, ↓reduceIte, EStateM.run_bind,
        EStateM.run_pure, evaluate_run]
      cases t.evaluate e with
      | error f => rfl
      | ok v => simp only [hassign, Except.map, answer?]
  | print name =>
    simp only [statement, SymbolTable.check, EStateM.run_bind, EStateM.run_get]
    cases t.isDefined name <;> rfl

theorem program_run (t : SymbolTable) (stmts : List Stmt) :
    (program stmts).run t =
      match (t.analyze stmts).fault with
      | none => .ok () (t.analyze stmts).table
      | some f => .error f (t.analyze stmts).table := by
  induction stmts generalizing t with
  | nil => rfl
  | cons s rest ih =>
    rw [program, EStateM.run_bind, statement_run, SymbolTable.analyze]
    cases t.check s with
    | error f => rfl
    | ok effect => exact ih (effect.apply t)

end Edit

/-! ### What changes -/

namespace SymbolTable

/-- `after` has the entry `e` behind those of the table, and is the same otherwise. -/
structure Adds (t after : SymbolTable) (e : Entry) : Prop where
  vacant : e.name ∉ t.toList.map Entry.name
  toList : after.toList = t.toList ++ [e]
  index : ∀ name, after.index[name]? = if name = e.name then some t.size else t.index[name]?

/-- `after` has another value in the entry of `name`, and is the same otherwise. -/
structure Overwrites (t after : SymbolTable) (name : String) (value : Value) : Prop where
  index : after.index = t.index
  toList : ∃ i e, t.index[name]? = some i ∧ t.toList[i]? = some e ∧ e.name = name ∧
    after.toList = t.toList.set i { e with value := value }

/-- What a statement that passes does to the table, and what the table says to it. -/
def Changed (t after : SymbolTable) (taken : Option Bool) : Stmt → Prop
  | .declaration ty name init => taken = some true ∧
      ∃ value, init.elim (.ok .uninitialized) t.evaluate = .ok value ∧
        t.Adds after ⟨name, ty, value⟩
  | .assignment name e => taken = some true ∧
      ∃ value, t.evaluate e = .ok value ∧ t.Overwrites after name value
  | .print _ => taken = none ∧ after = t

variable {t : SymbolTable} {name : String}

theorem adds (hdef : t.isDefined name = false) (ty : Ty) (value : Value) :
    t.Adds ((Effect.declare name ty value).apply t) ⟨name, ty, value⟩ where
  vacant := by
    rw [← isDefined_iff_mem, hdef]
    exact Bool.false_ne_true
  toList := toList_apply_declare hdef ty value
  index x := by
    obtain ⟨after, hdeclare⟩ := exists_declare? hdef ty value
    obtain ⟨-, hindex, -⟩ := declare?_eq_some_iff.1 hdeclare
    rw [Effect.apply, hdeclare, Option.getD_some, hindex, Std.HashMap.getElem?_insert]
    simp only [beq_iff_eq, eq_comm (a := name), size]

theorem overwrites (hdef : t.isDefined name = true) (value : Value) :
    t.Overwrites ((Effect.assign name value).apply t) name value := by
  obtain ⟨after, hassign⟩ := exists_assign? hdef value
  obtain ⟨i, hi, hindex, hentries⟩ := assign?_eq_some_iff.1 hassign
  obtain ⟨e, he, hname⟩ := (t.indexes name i).1 hi
  rw [Effect.apply, hassign, Option.getD_some]
  have hrow : t.toList[i]? = some e := by rwa [toList, Array.getElem?_toList]
  refine ⟨hindex, i, e, hi, hrow, hname, ?_⟩
  rw [toList, hentries, Array.toList_modify, List.modify_eq_set_getElem?, ← toList, hrow]
  rfl

theorem Passes.changed {s : Stmt} {effect : Effect} (h : t.Passes s effect) :
    t.Changed (effect.apply t) (Edit.answer? effect) s := by
  cases h with
  | declaration hdef => exact ⟨rfl, _, rfl, adds hdef _ _⟩
  | initialized hdef he => exact ⟨rfl, _, he, adds hdef _ _⟩
  | assignment hdef he => exact ⟨rfl, _, he, overwrites hdef _⟩
  | print => exact ⟨rfl, rfl⟩

end SymbolTable

/-- On any table that can come about, analysis in place gives what the analysis gives that makes a
new table. Evaluating changes nothing. A statement that fails changes nothing; one that passes adds
the entry that it declares, changes the value that it assigns or, as a print, changes nothing, and
the table takes the change. A program that fails leaves the table which the statements in front of
the failing one lead to, whatever stands behind it. -/
theorem analysis_changes_only_what_is_named (actions : List Action) :
    let t := (session SymbolTable.perform .empty actions).2
    (∀ e, (Edit.evaluate e).run t =
      match t.evaluate e with
      | .ok value => .ok value t
      | .error f => .error f t) ∧
    (∀ s,
      match (Edit.statement s).run t with
      | .ok taken after => t.step s = .ok after ∧ t.Changed after taken s
      | .error f after => t.step s = .error f ∧ after = t) ∧
    ∀ stmts,
      match (Edit.program stmts).run t with
      | .ok _ after => (t.analyze stmts).fault = none ∧ (t.analyze stmts).table = after
      | .error f after => (t.analyze stmts).fault = some f ∧ (t.analyze stmts).table = after ∧
        ∃ passed s rest, stmts = passed ++ s :: rest ∧
          (Edit.program passed).run t = .ok () after ∧
          (Edit.statement s).run after = .error f after ∧
          ∀ others, (Edit.program (passed ++ s :: others)).run t = .error f after := by
  intro t
  refine ⟨Edit.evaluate_run t, fun s => ?_, fun stmts => ?_⟩
  · rw [Edit.statement_run, SymbolTable.step]
    cases hs : t.check s with
    | error f => exact ⟨rfl, rfl⟩
    | ok effect => exact ⟨rfl, (SymbolTable.check_eq_ok_iff.1 hs).changed⟩
  · rw [Edit.program_run]
    cases hfault : (t.analyze stmts).fault with
    | none => exact ⟨rfl, rfl⟩
    | some f =>
      obtain ⟨passed, s, rest, rfl, hpassed, hs, heq⟩ := SymbolTable.exists_passed hfault
      refine ⟨rfl, rfl, passed, s, rest, rfl, ?_, ?_, fun others => ?_⟩
      · rw [Edit.program_run, hpassed, heq]
      · rw [heq, Edit.statement_run, hs]
      · obtain ⟨hfault', htable⟩ := SymbolTable.analyze_append hpassed (s :: others)
        rw [Edit.program_run, hfault', htable, SymbolTable.analyze, hs, heq]

end ThreeAddress
