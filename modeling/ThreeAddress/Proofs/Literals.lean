import ThreeAddress.Proofs.Emission
import ThreeAddress.Proofs.Session

/-!
# Literals and declared types decide nothing

The outline of a program leaves out the texts of its numbers and the types that it declares, the
outline of a table all but the names and whether there is a value. What analysis accepts, the error
it ends with and the outline of the table it leads to depend on these outlines alone
(`Rows.analyze_outline`): a value is only asked whether it is there, and an error names variables,
since nothing else can be without a value.

In code, a number and a variable are operands of the same form. `TracedInstr` keeps apart where an
operand comes from, and with literals and types left out the traced code of a program is that of its
outline (`stmtsTracedFrom_outline`).
-/

namespace ThreeAddress

/-! ### Outlines -/

/-- The expression with the texts of its numbers left out. -/
def Expr.outline : Expr → Expr
  | number _ => .number ""
  | identifier name => .identifier name
  | binary op left right => .binary op left.outline right.outline

/-- The statement with the texts of its numbers and the type that it declares left out. -/
def Stmt.outline : Stmt → Stmt
  | declaration _ name init => .declaration .int name (init.map Expr.outline)
  | assignment name value => .assignment name value.outline
  | print name => .print name

def Program.outline (p : Program) : Program :=
  ⟨p.stmts.map Stmt.outline⟩

/-- The name of an entry, and whether it has a value. -/
def Entry.outline (e : Entry) : String × Bool :=
  (e.name, e.value.isInitialized)

/-- The tables have the same names in the same order, and the same of them are uninitialized. -/
structure SymbolTable.Alike (t t' : SymbolTable) : Prop where
  names : t.toList.map Entry.name = t'.toList.map Entry.name
  uninitialized : ∀ x, t.valueOf x = some .uninitialized ↔ t'.valueOf x = some .uninitialized

theorem Value.isInitialized_eq_false_iff {v : Value} :
    v.isInitialized = false ↔ v = .uninitialized := by
  cases v <;> simp [isInitialized, text?]

namespace SymbolTable

variable {t t' : SymbolTable}

theorem outline_eq (t : SymbolTable) :
    t.toList.map Entry.outline =
      (t.toList.map Entry.name).map fun x => (x, decide (t.valueOf x ≠ some .uninitialized)) := by
  rw [List.map_map]
  refine List.map_congr_left fun e he => ?_
  have hvalue : e.value.isInitialized = decide (e.value ≠ .uninitialized) := by
    cases e.value <;> rfl
  simp [Entry.outline, hvalue, valueOf_of_mem he]

theorem alike_iff :
    t.Alike t' ↔ t.toList.map Entry.outline = t'.toList.map Entry.outline := by
  constructor
  · intro h
    rw [outline_eq, outline_eq, h.names]
    simp only [ne_eq, h.uninitialized]
  · intro h
    refine ⟨?_, fun x => ?_⟩
    · have hnames := congrArg (List.map Prod.fst) h
      simpa only [List.map_map, Function.comp_def, Entry.outline] using hnames
    · have hmem : ∀ t : SymbolTable, t.valueOf x = some .uninitialized ↔
          (x, false) ∈ t.toList.map Entry.outline := by
        intro t
        simp [valueOf_eq_some_iff, Entry.outline, Value.isInitialized_eq_false_iff]
      rw [hmem, hmem, h]

end SymbolTable

/-! ### Analysis -/

/-- The value of an operator is there if both operands have one; otherwise the error names the first
operand that has none. -/
theorem Value.map_isInitialized_combine (op : BinOp) (left right : Expr) (l r : Value) :
    (combine op left right l r).map isInitialized =
      if l.isInitialized then
        if r.isInitialized then .ok true
        else .error (.uninitializedOperand right.operandName op.symbol)
      else .error (.uninitializedOperand left.operandName op.symbol) := by
  unfold combine isInitialized
  cases l.text? <;> cases r.text? <;> rfl

theorem cases_of_map_eq {ε α β : Type} {r r' : Except ε α} {f : α → β} (h : r.map f = r'.map f) :
    (∃ e, r = .error e ∧ r' = .error e) ∨ ∃ a a', r = .ok a ∧ r' = .ok a' ∧ f a = f a' := by
  cases r with
  | error e =>
    cases r' with
    | error e' => cases h; exact .inl ⟨e, rfl, rfl⟩
    | ok a' => cases h
  | ok a =>
    cases r' with
    | error e' => cases h
    | ok a' => exact .inr ⟨a, a', rfl, rfl, Except.ok.inj h⟩

namespace Rows

/-! What the rows say about a name, and what storing does to them, through the outline. -/

theorem outline_get? (rows : List Entry) (name : String) :
    (get? rows name).map Entry.outline =
      (rows.map Entry.outline).find? fun row => row.1 = name := by
  rw [List.find?_map]
  rfl

theorem isDefined_eq_any_outline (rows : List Entry) (name : String) :
    isDefined rows name = (rows.map Entry.outline).any fun row => row.1 = name := by
  rw [List.any_map]
  rfl

theorem outline_store (rows : List Entry) (name : String) (value : Value) :
    (store rows name value).map Entry.outline = (rows.map Entry.outline).map fun row =>
      if row.1 = name then (row.1, value.isInitialized) else row := by
  rw [store, List.map_map, List.map_map]
  refine List.map_congr_left fun e _ => ?_
  by_cases he : e.name = name <;> simp [Entry.outline, he]

/-- A number always has a value, so an error cannot name one. -/
theorem operandName_outline {rows : List Entry} {e : Expr} {v : Value}
    (h : evaluate rows e = .ok v) (hv : v.isInitialized = false) :
    e.outline.operandName = e.operandName := by
  cases e with
  | number text => cases h; cases hv
  | identifier name => rfl
  | binary op left right => rfl

variable {rows rows' : List Entry}

theorem evaluate_outline (h : rows.map Entry.outline = rows'.map Entry.outline) (e : Expr) :
    (evaluate rows e).map Value.isInitialized =
      (evaluate rows' e.outline).map Value.isInitialized := by
  induction e with
  | number text => rfl
  | identifier name =>
    have hevaluate : ∀ rows : List Entry,
        (evaluate rows (.identifier name)).map Value.isInitialized =
          match (get? rows name).map Entry.outline with
          | some row => .ok row.2
          | none => .error (.undeclared name) := by
      intro rows
      rw [evaluate]
      cases get? rows name <;> rfl
    rw [Expr.outline, hevaluate, hevaluate, outline_get?, outline_get?, h]
  | binary op left right ihl ihr =>
    rw [Expr.outline, evaluate, evaluate]
    rcases cases_of_map_eq ihl with ⟨f, hl, hl'⟩ | ⟨l, l', hl, hl', hinit⟩
    · rw [hl, hl']
      rfl
    rcases cases_of_map_eq ihr with ⟨f, hr, hr'⟩ | ⟨r, r', hr, hr', hinit'⟩
    · rw [hl, hl', hr, hr']
      rfl
    rw [hl, hl', hr, hr']
    show (Value.combine op left right l r).map Value.isInitialized =
      (Value.combine op left.outline right.outline l' r').map Value.isInitialized
    rw [Value.map_isInitialized_combine, Value.map_isInitialized_combine, ← hinit, ← hinit']
    -- the operand that an error names has no value
    split
    · split
      · rfl
      · next hnone => rw [operandName_outline hr (Bool.eq_false_iff.2 hnone)]
    · next hnone => rw [operandName_outline hl (Bool.eq_false_iff.2 hnone)]

theorem step_outline (h : rows.map Entry.outline = rows'.map Entry.outline) (s : Stmt) :
    (step rows s).map (List.map Entry.outline) =
      (step rows' s.outline).map (List.map Entry.outline) := by
  have hdef : ∀ name, isDefined rows name = isDefined rows' name := by
    intro name
    rw [isDefined_eq_any_outline, isDefined_eq_any_outline, h]
  cases s with
  | declaration ty name init =>
    rw [Stmt.outline, step, step, hdef]
    split
    · rfl
    cases init with
    | none => simp [Except.map, Entry.outline, h]
    | some e =>
      rcases cases_of_map_eq (evaluate_outline h e) with ⟨f, he, he'⟩ | ⟨v, v', he, he', hinit⟩
      · simp [he, he', Except.map]
      · simp [he, he', Except.map, Entry.outline, h, hinit]
  | assignment name e =>
    rw [Stmt.outline, step, step, hdef]
    split
    · rcases cases_of_map_eq (evaluate_outline h e) with ⟨f, he, he'⟩ | ⟨v, v', he, he', hinit⟩
      · rw [he, he']
        rfl
      · simp only [he, he', Except.map, outline_store, h, hinit]
    · rfl
  | print name =>
    rw [Stmt.outline, step, step, hdef]
    split
    · exact congrArg Except.ok h
    · rfl

/-- Analysis ends alike, at the same statement with the same error if it fails. -/
theorem analyze_outline (h : rows.map Entry.outline = rows'.map Entry.outline)
    (stmts : List Stmt) :
    (analyze rows stmts).map id (List.map Entry.outline) =
      (analyze rows' (stmts.map Stmt.outline)).map id (List.map Entry.outline) := by
  induction stmts generalizing rows rows' with
  | nil => exact congrArg (none, ·) h
  | cons s rest ih =>
    rw [List.map_cons, analyze, analyze]
    rcases cases_of_map_eq (step_outline h s) with ⟨f, hs, hs'⟩ | ⟨after, after', hs, hs', hafter⟩
    · rw [hs, hs']
      exact congrArg (some f, ·) h
    · rw [hs, hs']
      exact ih hafter

end Rows

/-- Programs of one outline are analyzed alike from tables of one outline. -/
theorem SymbolTable.Alike.analyze {t t' : SymbolTable} (h : t.Alike t') {stmts stmts' : List Stmt}
    (hstmts : stmts.map Stmt.outline = stmts'.map Stmt.outline) :
    (t.analyze stmts).fault = (t'.analyze stmts').fault ∧
      (t.analyze stmts).table.Alike (t'.analyze stmts').table := by
  have hrun := Rows.analyze_outline (alike_iff.1 h) stmts
  rw [hstmts, ← Rows.analyze_outline rfl stmts', ← toList_analyze, ← toList_analyze] at hrun
  obtain ⟨hfault, htable⟩ := Prod.mk.inj hrun
  exact ⟨hfault, alike_iff.2 htable⟩

/-! ### Code -/

/-- What an instruction reads: a number, a variable or a temporary. -/
inductive Origin
  | literal (text : String)
  | named (name : String)
  | temp (n : Nat)
deriving Repr, DecidableEq

/-- The operand in the code, where a number and a variable are not told apart. -/
def Origin.operand : Origin → Operand
  | literal text => .name text
  | named name => .name name
  | temp n => .temp n

def Origin.outline : Origin → Origin
  | literal _ => .literal ""
  | named name => .named name
  | temp n => .temp n

/-- An instruction that knows where what it reads comes from. -/
inductive TracedInstr
  | declare (name : String) (ty : Ty)
  | copy (dst : Operand) (src : Origin)
  | binary (dst : Operand) (op : BinOp) (left right : Origin)
  | print (name : String)
deriving Repr, DecidableEq

namespace TracedInstr

def instr : TracedInstr → Instr
  | declare name ty => .declare name ty
  | copy dst src => .copy dst src.operand
  | binary dst op left right => .binary dst op left.operand right.operand
  | print name => .print name

/-- The instruction with literals and the declared type left out. -/
def outline : TracedInstr → TracedInstr
  | declare name _ => .declare name .int
  | copy dst src => .copy dst src.outline
  | binary dst op left right => .binary dst op left.outline right.outline
  | print name => .print name

end TracedInstr

/-- Where the value of an expression is found if its operators take the temporaries from `n` on. -/
def Expr.origin (n : Nat) : Expr → Origin
  | number text => .literal text
  | identifier name => .named name
  | binary _ left right => .temp (n + left.operators + right.operators)

def Expr.tracedFrom (n : Nat) : Expr → List TracedInstr
  | number _ | identifier _ => []
  | binary op left right =>
    left.tracedFrom n ++ right.tracedFrom (n + left.operators) ++
      [.binary (.temp (n + left.operators + right.operators)) op (left.origin n)
        (right.origin (n + left.operators))]

def Stmt.tracedFrom (n : Nat) : Stmt → List TracedInstr
  | declaration ty name none => [.declare name ty]
  | declaration _ name (some value) => value.tracedFrom n ++ [.copy (.name name) (value.origin n)]
  | assignment name value => value.tracedFrom n ++ [.copy (.name name) (value.origin n)]
  | print name => [.print name]

def stmtsTracedFrom (n : Nat) : List Stmt → List TracedInstr
  | [] => []
  | s :: stmts => s.tracedFrom n ++ stmtsTracedFrom (n + s.operators) stmts

/-- The code of a program with the origins of what it reads. -/
def Program.traced (p : Program) : List TracedInstr :=
  stmtsTracedFrom 0 p.stmts

/-! Without the origins it is the code. -/

theorem Expr.operand_origin (e : Expr) (n : Nat) : (e.origin n).operand = e.place n := by
  cases e <;> rfl

theorem Expr.map_instr_tracedFrom (e : Expr) (n : Nat) :
    (e.tracedFrom n).map TracedInstr.instr = e.codeFrom n := by
  induction e generalizing n with
  | number | identifier => rfl
  | binary op left right ihl ihr =>
    rw [tracedFrom, List.map_append, List.map_append, ihl, ihr, List.map_singleton,
      TracedInstr.instr, operand_origin, operand_origin, codeFrom]

theorem Stmt.map_instr_tracedFrom (s : Stmt) (n : Nat) :
    (s.tracedFrom n).map TracedInstr.instr = s.codeFrom n := by
  have hstore : ∀ (name : String) (e : Expr),
      (e.tracedFrom n ++ [TracedInstr.copy (.name name) (e.origin n)]).map TracedInstr.instr =
        e.codeFrom n ++ [.copy (.name name) (e.place n)] := by
    intro name e
    rw [List.map_append, e.map_instr_tracedFrom, List.map_singleton, TracedInstr.instr,
      e.operand_origin]
  cases s with
  | declaration ty name init =>
    cases init with
    | none => rfl
    | some value => exact hstore name value
  | assignment name value => exact hstore name value
  | print name => rfl

theorem map_instr_stmtsTracedFrom (stmts : List Stmt) (n : Nat) :
    (stmtsTracedFrom n stmts).map TracedInstr.instr = stmtsCodeFrom n stmts := by
  induction stmts generalizing n with
  | nil => rfl
  | cons s stmts ih =>
    rw [stmtsTracedFrom, List.map_append, s.map_instr_tracedFrom, ih, stmtsCodeFrom]

theorem Program.map_instr_traced (p : Program) : p.traced.map TracedInstr.instr = p.code := by
  rw [traced, map_instr_stmtsTracedFrom, code_eq]

/-! The outline of a program has the code of the program, up to literals and declared types. -/

theorem Expr.operators_outline (e : Expr) : e.outline.operators = e.operators := by
  induction e with
  | number | identifier => rfl
  | binary op left right ihl ihr => rw [outline, operators, operators, ihl, ihr]

theorem Stmt.operators_outline (s : Stmt) : s.outline.operators = s.operators := by
  cases s with
  | declaration ty name init =>
    cases init with
    | none => rfl
    | some value => exact value.operators_outline
  | assignment name value => exact value.operators_outline
  | print name => rfl

theorem Expr.origin_outline (e : Expr) (n : Nat) : e.outline.origin n = (e.origin n).outline := by
  cases e with
  | number | identifier => rfl
  | binary op left right =>
    rw [outline, origin, origin, operators_outline, operators_outline, Origin.outline]

theorem Expr.tracedFrom_outline (e : Expr) (n : Nat) :
    e.outline.tracedFrom n = (e.tracedFrom n).map TracedInstr.outline := by
  induction e generalizing n with
  | number | identifier => rfl
  | binary op left right ihl ihr =>
    simp only [outline, tracedFrom, operators_outline, ihl, ihr, origin_outline, List.map_append,
      List.map_cons, List.map_nil, TracedInstr.outline]

theorem Stmt.tracedFrom_outline (s : Stmt) (n : Nat) :
    s.outline.tracedFrom n = (s.tracedFrom n).map TracedInstr.outline := by
  have hstore : ∀ (name : String) (e : Expr),
      e.outline.tracedFrom n ++ [TracedInstr.copy (.name name) (e.outline.origin n)] =
        (e.tracedFrom n ++ [TracedInstr.copy (.name name) (e.origin n)]).map
          TracedInstr.outline := by
    intro name e
    rw [e.tracedFrom_outline, e.origin_outline, List.map_append, List.map_singleton,
      TracedInstr.outline]
  cases s with
  | declaration ty name init =>
    cases init with
    | none => rfl
    | some value => exact hstore name value
  | assignment name value => exact hstore name value
  | print name => rfl

theorem stmtsTracedFrom_outline (stmts : List Stmt) (n : Nat) :
    stmtsTracedFrom n (stmts.map Stmt.outline) =
      (stmtsTracedFrom n stmts).map TracedInstr.outline := by
  induction stmts generalizing n with
  | nil => rfl
  | cons s stmts ih =>
    rw [List.map_cons, stmtsTracedFrom, stmtsTracedFrom, s.operators_outline, s.tracedFrom_outline,
      ih, List.map_append]

/-- Two programs differ only in the texts of their numbers and in the types they declare. From
tables that can come about, with the same names in the same order and the same of them
uninitialized, both are accepted or both fail with the same error, and lead to such tables again.
Their codes are the same up to literals and declared types. -/
theorem literals_decide_nothing {p q : Program} (h : p.outline = q.outline)
    (actions actions' : List Action) :
    let t := (session SymbolTable.perform .empty actions).2
    let t' := (session SymbolTable.perform .empty actions').2
    (t.Alike t' →
      (t.analyze p.stmts).fault = (t'.analyze q.stmts).fault ∧
        (t.analyze p.stmts).table.Alike (t'.analyze q.stmts).table) ∧
      p.traced.map TracedInstr.instr = p.code ∧ q.traced.map TracedInstr.instr = q.code ∧
      p.traced.map TracedInstr.outline = q.traced.map TracedInstr.outline := by
  intro t t'
  have hstmts : p.stmts.map Stmt.outline = q.stmts.map Stmt.outline := congrArg Program.stmts h
  refine ⟨fun halike => halike.analyze hstmts, p.map_instr_traced, q.map_instr_traced, ?_⟩
  rw [Program.traced, Program.traced, ← stmtsTracedFrom_outline, ← stmtsTracedFrom_outline, hstmts]

/-- In both tables `x` has a value and `y` has none. Both programs declare `z` and fail at `y`. -/
theorem literals_decide_nothing_vacant :
    let t := (session SymbolTable.perform .empty
      [.declare "x" .int (.literal "1"), .declare "y" .int .uninitialized]).2
    let t' := (session SymbolTable.perform .empty
      [.declare "x" .float (.composed "7 / 2"), .declare "y" .float .uninitialized]).2
    let p : Program := ⟨[.declaration .int "z" (some (.binary .add (.identifier "x")
      (.number "1"))), .assignment "x" (.binary .mul (.number "x") (.identifier "y"))]⟩
    let q : Program := ⟨[.declaration .float "z" (some (.binary .add (.identifier "x")
      (.number "2.5"))), .assignment "x" (.binary .mul (.number "0") (.identifier "y"))]⟩
    p.outline = q.outline ∧ t.Alike t' ∧
      (t.analyze p.stmts).fault = some (.uninitializedOperand "y" "*") ∧
      (t'.analyze q.stmts).fault = some (.uninitializedOperand "y" "*") ∧
      (t.analyze p.stmts).table.Alike (t'.analyze q.stmts).table ∧
      p.traced.map TracedInstr.outline = q.traced.map TracedInstr.outline := by
  intro t t' p q
  have houtline : p.outline = q.outline := by decide
  have htable : t.toList = [⟨"x", .int, .literal "1"⟩, ⟨"y", .int, .uninitialized⟩] :=
    congrArg Prod.snd (SymbolTable.empty.toList_session _)
  have htable' : t'.toList = [⟨"x", .float, .composed "7 / 2"⟩, ⟨"y", .float, .uninitialized⟩] :=
    congrArg Prod.snd (SymbolTable.empty.toList_session _)
  have halike : t.Alike t' := by
    rw [SymbolTable.alike_iff, htable, htable']
    decide
  have hfault : (t.analyze p.stmts).fault = some (.uninitializedOperand "y" "*") := by
    have hrows := congrArg Prod.fst (t.toList_analyze p.stmts)
    rw [htable] at hrows
    exact hrows
  obtain ⟨hboth, -, -, hcode⟩ := literals_decide_nothing houtline
    [.declare "x" .int (.literal "1"), .declare "y" .int .uninitialized]
    [.declare "x" .float (.composed "7 / 2"), .declare "y" .float .uninitialized]
  obtain ⟨hsame, hafter⟩ := hboth halike
  exact ⟨houtline, halike, hfault, hsame ▸ hfault, hafter, hcode⟩

end ThreeAddress
