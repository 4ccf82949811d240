import ThreeAddress.Proofs.Emission
import ThreeAddress.Proofs.Semantics
import ThreeAddress.Proofs.Spelling

/-!
# Code runs like the program it comes from

The code of an expression leaves its value in the operand that stands for it, and changes no
variable and no temporary of an earlier operator (`Expr.computes_codeFrom`), so the value of a left
operand survives while the right one is computed. The code of a statement therefore does to the
variables what the statement does, and prints the same, whatever the temporaries hold
(`Stmt.exec_codeFrom`); whole programs follow, statement by statement (`exec_code`). What holds of
the code of an expression holds of the code that lowering adds to a builder, whatever it has made
before.
-/

namespace ThreeAddress

universe u

variable {V : Type u} {D : Domain V}

/-! ### Frames -/

/-- The machines agree on the variables and on the temporaries below `n`. -/
structure Frame (n : Nat) (m m' : Machine V) : Prop where
  vars : m'.vars = m.vars
  temps : ∀ k < n, m'.temps k = m.temps k

namespace Frame

theorem refl (n : Nat) (m : Machine V) : Frame n m m :=
  ⟨rfl, fun _ _ => rfl⟩

theorem trans {n n' : Nat} {m m' m'' : Machine V} (h : Frame n m m') (h' : Frame n' m' m'')
    (hn : n ≤ n') : Frame n m m'' :=
  ⟨h'.vars.trans h.vars, fun k hk => (h'.temps k (by omega)).trans (h.temps k hk)⟩

theorem setTemp {n k : Nat} {m m' : Machine V} (h : Frame n m m') (hk : n ≤ k) (v : V) :
    Frame n m (m'.setTemp k v) := by
  refine ⟨h.vars, fun j hj => ?_⟩
  have hne : j ≠ k := by omega
  rw [← h.temps j hj]
  exact if_neg hne

/-- A place filled from the temporaries below `n'` still holds its value. -/
theorem read_place {n n' : Nat} {m m' : Machine V} (e : Expr) (h : Frame n' m m')
    (hn : n + e.operators ≤ n') : m'.read D (e.place n) = m.read D (e.place n) := by
  cases e with
  | number text => simp only [Expr.place, Machine.read, h.vars]
  | identifier name => simp only [Expr.place, Machine.read, h.vars]
  | binary op left right =>
    rw [Expr.operators] at hn
    exact h.temps _ (by omega)

end Frame

/-! ### Expressions -/

/-- Run on `m`, the code prints nothing and changes no variable and no temporary below `n`, and
`place` holds `value` then. There is no value if the run fails or if `place` cannot be read. -/
def Computes (D : Domain V) (m : Machine V) (code : List Instr) (n : Nat) (place : Operand)
    (value : Option V) : Prop :=
  ∃ final, m.exec D code = .silent final ∧ (∀ m' ∈ final, Frame n m m') ∧
    (final.bind fun m' => m'.read D place) = value

theorem exec_append (m : Machine V) (code more : List Instr) :
    m.exec D (code ++ more) = (m.exec D code).andThen fun m => m.exec D more :=
  Ending.run_append _ m code more

theorem exec_singleton (m : Machine V) (i : Instr) : m.exec D [i] = i.exec D m :=
  Ending.run_singleton _ m i

theorem Instr.exec_binary_temp (m : Machine V) (n : Nat) (op : BinOp) (left right : Operand) :
    (binary (.temp n) op left right).exec D m = .silent ((do
      let l ← m.read D left
      let r ← m.read D right
      D.apply op l r).map (m.setTemp n)) := by
  simp only [exec, Machine.write, Option.bind_eq_bind, Option.map_eq_bind, Option.bind_assoc]
  rfl

theorem Expr.computes_codeFrom {e : Expr} (he : e.Spelled) (n : Nat) (m : Machine V) :
    Computes D m (e.codeFrom n) n (e.place n) (e.eval D m.vars) := by
  induction e generalizing n m with
  | number text =>
    refine ⟨some m, rfl, ?_, if_pos he⟩
    rintro _ ⟨⟩; exact .refl n m
  | identifier name =>
    refine ⟨some m, rfl, ?_, if_neg he⟩
    rintro _ ⟨⟩; exact .refl n m
  | binary op left right ihl ihr =>
    obtain ⟨final₁, hexec₁, hframe₁, hval₁⟩ := ihl he.1 n m
    rw [codeFrom, List.append_assoc, eval, ← hval₁]
    cases final₁ with
    | none => exact ⟨none, by rw [exec_append, hexec₁]; rfl, by simp, rfl⟩
    | some m₁ =>
    have hm₁ := hframe₁ m₁ rfl
    obtain ⟨final₂, hexec₂, hframe₂, hval₂⟩ := ihr he.2 (n + left.operators) m₁
    rw [← hm₁.vars, ← hval₂, Option.bind_some]
    cases final₂ with
    | none =>
      refine ⟨none, ?_, by simp, by simp⟩
      rw [exec_append, hexec₁, Ending.silent_some_andThen, exec_append, hexec₂]
      rfl
    | some m₂ =>
    have hm₂ := hframe₂ m₂ rfl
    -- the right operand took later temporaries, so the left one is still in its place
    have hleft : m₂.read D (left.place n) = m₁.read D (left.place n) :=
      hm₂.read_place left (Nat.le_refl _)
    rw [Option.bind_some, ← hleft]
    generalize hv : (do
      let l ← m₂.read D (left.place n)
      let r ← m₂.read D (right.place (n + left.operators))
      D.apply op l r) = value
    refine ⟨value.map (m₂.setTemp (n + left.operators + right.operators)), ?_, ?_, ?_⟩
    · rw [exec_append, hexec₁, Ending.silent_some_andThen, exec_append, hexec₂,
        Ending.silent_some_andThen, exec_singleton, Instr.exec_binary_temp, hv]
    · intro m' hm'
      obtain ⟨v, -, rfl⟩ := Option.map_eq_some_iff.1 hm'
      exact (hm₁.trans hm₂ (by omega)).setTemp (by omega) v
    · cases value with
      | none => rfl
      | some v => simp [place, Machine.read, Machine.setTemp]

/-! ### Statements and programs -/

theorem exec_store {e : Expr} (he : e.Spelled) {name : String} (hname : ¬ IsNumeral name) (n : Nat)
    (m : Machine V) :
    (m.exec D (e.codeFrom n ++ [.copy (.name name) (e.place n)])).map Machine.vars =
      .silent ((e.eval D m.vars).map (m.vars.set name)) := by
  obtain ⟨final, hexec, hframe, hval⟩ := Expr.computes_codeFrom he n m
  rw [exec_append, hexec, ← hval]
  cases final with
  | none => rfl
  | some m' =>
    rw [Ending.silent_some_andThen, exec_singleton, Option.bind_some, ← (hframe m' rfl).vars]
    cases hread : m'.read D (e.place n) <;> simp [Instr.exec, hread, Machine.write, hname]

/-- The code of a statement changes the variables as the statement does and prints the same,
whatever the temporaries hold before. -/
theorem Stmt.exec_codeFrom {s : Stmt} (hs : s.Spelled) (n : Nat) (m : Machine V) :
    (m.exec D (s.codeFrom n)).map Machine.vars = s.exec D m.vars := by
  cases s with
  | declaration ty name init =>
    cases init with
    | none => rfl
    | some value => exact exec_store (hs.2 value rfl) hs.1 n m
  | assignment name value => exact exec_store hs.2 hs.1 n m
  | print name =>
    rw [codeFrom, exec_singleton, Instr.exec, Ending.map_print]
    rfl

theorem exec_stmtsCodeFrom {stmts : List Stmt} (hstmts : ∀ s ∈ stmts, s.Spelled) (n : Nat)
    (m : Machine V) :
    (m.exec D (stmtsCodeFrom n stmts)).map Machine.vars = .run (Stmt.exec D) m.vars stmts := by
  induction stmts generalizing n m with
  | nil => rfl
  | cons s stmts ih =>
    have hs := Stmt.exec_codeFrom (D := D) (hstmts s (by simp)) n m
    -- the rest may start with any temporaries, so only the variables matter in between
    have hrest : ∀ m' : Machine V, (m'.exec D (stmtsCodeFrom (n + s.operators) stmts)).map
        Machine.vars = .run (Stmt.exec D) m'.vars stmts :=
      fun m' => ih (fun s hs => hstmts s (by simp [hs])) _ m'
    rw [stmtsCodeFrom, exec_append, Ending.run_cons]
    exact Ending.map_andThen hs hrest

theorem exec_code {p : Program} (hp : ∀ s ∈ p.stmts, s.Spelled) (m : Machine V) :
    (m.exec D p.code).map Machine.vars = p.exec D m.vars := by
  rw [Program.code_eq]
  exact exec_stmtsCodeFrom hp 0 m

/-- The code of a parsed program ends as the program itself does: both fail or both reach the same
values of all variables, and they have printed the same, over any domain of values, from any
variables, and whatever the temporaries hold at the start. -/
theorem exec_code_eq_exec {source : String} {p : Program} (h : parse (tokenize source) = .ok p)
    (D : Domain V) (σ : Store V) (temps : Nat → Option V) :
    (Machine.exec D ⟨σ, temps⟩ p.code).map Machine.vars = p.exec D σ :=
  exec_code (spelled_of_parse h) ⟨σ, temps⟩

/-- Integers, with a quotient only for divisors other than zero. -/
def integers : Domain Int where
  numeral text := text.toList.foldl (fun n c => 10 * n + (c.toNat - '0'.toNat : Nat)) 0
  apply
    | .add, l, r => some (l + r)
    | .sub, l, r => some (l - r)
    | .mul, l, r => some (l * r)
    | .div, l, r => if r = 0 then none else some (l / r)
  declare name _ σ := σ.set name 0

/-- With all variables zero at the start, the quotient in the last statement fails, behind what was
printed. -/
theorem exec_code_eq_exec_quotient :
    ∃ p, parse (tokenize "x = 12 - y / 4 * 3; print x; y = x / z;") = .ok p ∧
      (Machine.exec integers ⟨fun _ => some 0, fun _ => none⟩ p.code).map Machine.vars =
        p.exec integers (fun _ => some 0) ∧
      (p.exec integers fun _ => some 0).printed = [12] ∧
      (p.exec integers fun _ => some 0).final.isNone = true := by
  have h : parse (tokenize "x = 12 - y / 4 * 3; print x; y = x / z;") = .ok
      ⟨[.assignment "x" (.binary .sub (.number "12")
          (.binary .mul (.binary .div (.identifier "y") (.number "4")) (.number "3"))),
        .print "x", .assignment "y" (.binary .div (.identifier "x") (.identifier "z"))]⟩ := by
    decide +kernel
  exact ⟨_, h, exec_code_eq_exec h integers _ _, by decide, by decide⟩

/-! ### Lowering from any state -/

/-- Where every variable has a value, code that has run to its end leaves a value. -/
theorem Expr.isSome_read_place {e : Expr} (he : e.Spelled) {n : Nat} {m m' : Machine V}
    (hvars : ∀ x, (m.vars x).isSome = true)
    (h : m.exec D (e.codeFrom n) = .silent (some m')) : (m'.read D (e.place n)).isSome = true := by
  cases e with
  | number text =>
    have hread : m'.read D (.name text) = some (D.numeral text) := if_pos he
    rw [place, hread, Option.isSome_some]
  | identifier name =>
    cases h
    have hread : m.read D (.name name) = m.vars name := if_neg he
    rw [place, hread]
    exact hvars name
  | binary op left right =>
    -- the last instruction is that of the operator at the root
    have hfinal := congrArg Ending.final h
    rw [codeFrom, exec_append, Ending.final_andThen] at hfinal
    obtain ⟨m₂, -, hlast⟩ := Option.bind_eq_some_iff.1 hfinal
    rw [exec_singleton, Instr.exec_binary_temp] at hlast
    obtain ⟨v, -, rfl⟩ := Option.map_eq_some_iff.1 hlast
    simp [place, Machine.read, Machine.setTemp]

/-- Lowering an expression only adds code behind what the builder holds, and takes one temporary for
each operator. Run by itself, from any values of the variables and with any temporaries, the added
code prints nothing and keeps the variables and the temporaries of before. It fails exactly if the
evaluation of the expression does, and otherwise the operand that lowering gives holds the value. -/
theorem lower_from_any_state (b : Builder) {e : Expr} (he : e.Spelled) (D : Domain V)
    (vars : String → V) (temps : Nat → Option V) :
    let m : Machine V := ⟨fun x => some (vars x), temps⟩
    let (operand, after) := b.lower e
    ∃ code final, after.code.toList = b.code.toList ++ code ∧
      after.nextTemp = b.nextTemp + e.operators ∧
      m.exec D code = .silent final ∧
      (∀ m' ∈ final, Frame b.nextTemp m m') ∧
      (final = none ↔ e.eval D m.vars = none) ∧
      (∀ m' ∈ final, m'.read D operand = e.eval D m.vars) ∧
      match e with
      | .number text | .identifier text => code = [] ∧ operand = .name text
      | .binary _ _ _ => ∃ last, after.nextTemp = last + 1 ∧ operand = .temp last := by
  intro m
  obtain ⟨final, hexec, hframe, hvalue⟩ := e.computes_codeFrom he b.nextTemp m (D := D)
  have hread : ∀ m' ∈ final, m'.read D (e.place b.nextTemp) = e.eval D m.vars := by
    rintro m' rfl
    exact hvalue
  have hfails : final = none ↔ e.eval D m.vars = none := by
    cases final with
    | none => exact iff_of_true rfl hvalue.symm
    | some m' =>
      have hsome := Expr.isSome_read_place he (fun _ => rfl) hexec
      rw [hread m' rfl] at hsome
      exact iff_of_false nofun (Option.isSome_iff_ne_none.1 hsome)
  rw [Builder.lower_eq]
  refine ⟨e.codeFrom b.nextTemp, final, by simp [Builder.extend], rfl, hexec, hframe, hfails,
    hread, ?_⟩
  cases e with
  | number | identifier => exact ⟨rfl, rfl⟩
  | binary op left right =>
    refine ⟨b.nextTemp + left.operators + right.operators, ?_, rfl⟩
    rw [Builder.nextTemp_extend, Expr.operators]
    omega

/-- A builder that has taken five temporaries. The quotient fails if `y` is zero. -/
theorem lower_from_any_state_quotient :
    let b : Builder := ⟨5, #[.print "x"]⟩
    let e : Expr := .binary .sub (.binary .div (.number "12") (.identifier "y")) (.identifier "x")
    let m (y : Int) : Machine Int := ⟨fun x => some (if x = "y" then y else 1), fun k => some k⟩
    e.Spelled ∧ (b.lower e).1 = .temp 6 ∧
      (∃ code, (b.lower e).2.code.toList = b.code.toList ++ code ∧
        (m 0).exec integers code = .silent none) ∧
      ∃ code m', (b.lower e).2.code.toList = b.code.toList ++ code ∧
        (m 3).exec integers code = .silent (some m') ∧ Frame 5 (m 3) m' ∧
        m'.read integers (.temp 6) = some 3 := by
  intro b e m
  have he : e.Spelled := by
    show e.Texts IsNumeral (¬ IsNumeral ·)
    decide
  obtain ⟨code₀, final₀, hcode₀, -, hexec₀, -, hfails₀, -⟩ :=
    lower_from_any_state b he integers (if · = "y" then 0 else 1) (some ·)
  obtain ⟨code₃, final₃, hcode₃, -, hexec₃, hkeeps₃, hfails₃, hread₃, -⟩ :=
    lower_from_any_state b he integers (if · = "y" then 3 else 1) (some ·)
  obtain rfl : final₀ = none := hfails₀.2 (by decide)
  obtain ⟨m', rfl⟩ : ∃ m', final₃ = some m' :=
    Option.ne_none_iff_exists'.1 fun h => absurd (hfails₃.1 h) (by decide)
  exact ⟨he, by decide, ⟨code₀, hcode₀, hexec₀⟩,
    code₃, m', hcode₃, hexec₃, hkeeps₃ m' rfl, (hread₃ m' rfl).trans (by decide)⟩

end ThreeAddress
