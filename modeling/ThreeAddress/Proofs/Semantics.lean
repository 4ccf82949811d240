import ThreeAddress.Code.Basic
import ThreeAddress.Proofs.Lexeme

/-!
# The meaning of programs and of code

Both are run over any `Domain` of values: what a numeral stands for, four operators that may fail,
and what a declaration without a value does to the variables. A program is executed statement by
statement, an expression evaluated as a whole (`Program.exec`); code is executed instruction by
instruction on a `Machine`, which keeps variables and temporaries apart.

A run ends in an `Ending`: what was printed, and the state reached unless a step failed. The
ending of a list of steps is that of its parts one after the other (`Ending.run_append`).
-/

namespace ThreeAddress

universe u v w

/-! ### Endings -/

/-- How a run ends: the values printed, and the state reached, or none if the run failed. -/
structure Ending (V : Type u) (S : Type v) where
  printed : List V
  final : Option S
deriving Repr, DecidableEq

namespace Ending

variable {V : Type u} {S : Type v} {T : Type w} {ι : Type w}

def silent (final : Option S) : Ending V S := ⟨[], final⟩

/-- The ending of a step that prints a value and keeps the state. -/
def print (value : Option V) (s : S) : Ending V S :=
  match value with
  | some v => ⟨[v], some s⟩
  | none => silent none

def map (f : S → T) (o : Ending V S) : Ending V T :=
  ⟨o.printed, o.final.map f⟩

/-- Goes on from the state reached; a failed run stays as it is. -/
def andThen (o : Ending V S) (next : S → Ending V T) : Ending V T :=
  match o.final with
  | none => ⟨o.printed, none⟩
  | some s => ⟨o.printed ++ (next s).printed, (next s).final⟩

/-- Takes one step for every item, up to the first that fails. -/
def run (step : S → ι → Ending V S) (s : S) : List ι → Ending V S
  | [] => silent (some s)
  | i :: items => (step s i).andThen fun s => run step s items

@[simp] theorem silent_some_andThen (s : S) (next : S → Ending V T) :
    (silent (some s)).andThen next = next s := rfl

@[simp] theorem andThen_silent_some (o : Ending V S) :
    (o.andThen fun s => silent (some s)) = o := by
  obtain ⟨printed, final⟩ := o
  cases final <;> simp [andThen, silent]

@[simp] theorem map_silent (f : S → T) (final : Option S) :
    (silent final : Ending V S).map f = silent (final.map f) := rfl

@[simp] theorem map_print (f : S → T) (value : Option V) (s : S) :
    (print value s).map f = print value (f s) := by
  cases value <;> rfl

theorem andThen_assoc {U : Type w} (o : Ending V S) (next : S → Ending V T)
    (last : T → Ending V U) :
    (o.andThen next).andThen last = o.andThen fun s => (next s).andThen last := by
  obtain ⟨printed, final⟩ := o
  cases final with
  | none => rfl
  | some s =>
    rcases hs : next s with ⟨printed', final'⟩
    cases final' <;> simp [andThen, hs]

theorem final_andThen (o : Ending V S) (next : S → Ending V T) :
    (o.andThen next).final = o.final.bind fun s => (next s).final := by
  obtain ⟨printed, final⟩ := o
  cases final <;> rfl

/-- If the states agree through `f` after a part of a run, and the rest of the run depends on the
state only through `f`, the whole runs agree. -/
theorem map_andThen {f : S → T} {o : Ending V S} {o' : Ending V T} {next : S → Ending V S}
    {next' : T → Ending V T} (ho : o.map f = o') (hnext : ∀ s, (next s).map f = next' (f s)) :
    (o.andThen next).map f = o'.andThen next' := by
  subst ho
  obtain ⟨printed, final⟩ := o
  cases final with
  | none => rfl
  | some s => simp [andThen, map, ← hnext]

@[simp] theorem run_nil (step : S → ι → Ending V S) (s : S) :
    run step s [] = silent (some s) := rfl

@[simp] theorem run_cons (step : S → ι → Ending V S) (s : S) (i : ι) (items : List ι) :
    run step s (i :: items) = (step s i).andThen fun s => run step s items := rfl

theorem run_singleton (step : S → ι → Ending V S) (s : S) (i : ι) :
    run step s [i] = step s i := by
  simp

theorem run_append (step : S → ι → Ending V S) (s : S) (items more : List ι) :
    run step s (items ++ more) = (run step s items).andThen fun s => run step s more := by
  induction items generalizing s with
  | nil => rfl
  | cons i items ih => simp only [List.cons_append, run_cons, ih, andThen_assoc]

end Ending

/-! ### Programs -/

/-- The values of the variables; one without a value cannot be read. -/
abbrev Store (V : Type u) := String → Option V

def Store.set {V : Type u} (σ : Store V) (name : String) (v : V) : Store V :=
  fun other => if other = name then some v else σ other

/-- What programs compute with. An operator may be undefined, and a declaration without a value
may change the store in any way. -/
structure Domain (V : Type u) where
  numeral : String → V
  apply : BinOp → V → V → Option V
  declare : String → Ty → Store V → Store V

section

variable {V : Type u} (D : Domain V)

/-- The value of an expression, the left operand before the right one. -/
def Expr.eval (σ : Store V) : Expr → Option V
  | number text => some (D.numeral text)
  | identifier name => σ name
  | binary op left right => do
    let l ← left.eval σ
    let r ← right.eval σ
    D.apply op l r

def Stmt.exec (σ : Store V) : Stmt → Ending V (Store V)
  | declaration ty name none => .silent (some (D.declare name ty σ))
  | declaration _ name (some value) => .silent ((value.eval D σ).map (σ.set name))
  | assignment name value => .silent ((value.eval D σ).map (σ.set name))
  | print name => .print (σ name) σ

def Program.exec (σ : Store V) (p : Program) : Ending V (Store V) :=
  .run (Stmt.exec D) σ p.stmts

end

/-! ### Code -/

/-- The state of a run of code: the variables, and apart from them the temporaries. -/
structure Machine (V : Type u) where
  vars : Store V
  temps : Nat → Option V

section

variable {V : Type u} (D : Domain V)

def Machine.setTemp (m : Machine V) (n : Nat) (v : V) : Machine V :=
  { m with temps := fun k => if k = n then some v else m.temps k }

/-- What an operand holds: a numeral its value, any other text the value of that variable. -/
def Machine.read (m : Machine V) : Operand → Option V
  | .name text => if IsNumeral text then some (D.numeral text) else m.vars text
  | .temp n => m.temps n

/-- Stores a value; a numeral is no place to store it. -/
def Machine.write (m : Machine V) (v : V) : Operand → Option (Machine V)
  | .name text => if IsNumeral text then none else some { m with vars := m.vars.set text v }
  | .temp n => some (m.setTemp n v)

def Instr.exec (m : Machine V) : Instr → Ending V (Machine V)
  | declare name ty => .silent (some { m with vars := D.declare name ty m.vars })
  | copy dst src => .silent do
    let v ← m.read D src
    m.write v dst
  | binary dst op left right => .silent do
    let l ← m.read D left
    let r ← m.read D right
    let v ← D.apply op l r
    m.write v dst
  | print name => .print (m.vars name) m

def Machine.exec (m : Machine V) (code : List Instr) : Ending V (Machine V) :=
  .run (Instr.exec D) m code

end

end ThreeAddress
