import Mathlib.Data.Option.Basic
import ThreeAddress.Proofs.Initialization
import ThreeAddress.Proofs.Semantics
import ThreeAddress.Proofs.Spelling

/-!
# Runs over related domains

A relation between the values of two domains that numerals and operators keep is kept by whole
runs. The operators of the second domain may have no result where those of the first have one, but
only for operands that are singled out as `bad`: if a program runs to its end over the first
domain, it does so over the second, unless it applies an operator to bad operands there
(`Domain.Relates.run`).
-/

namespace ThreeAddress

universe u v

/-! ### Operators that a run applies -/

section

variable {V : Type u} (D : Domain V) (bad : BinOp → V → V → Prop)

/-- Evaluating the expression applies an operator to bad operands. -/
def Expr.Applies (σ : Store V) : Expr → Prop
  | number _ | identifier _ => False
  | binary op left right => left.Applies σ ∨ right.Applies σ ∨
      ∃ l r, left.eval D σ = some l ∧ right.eval D σ = some r ∧ bad op l r

/-- Executing the statements applies an operator to bad operands. -/
def stmtsApply : Store V → List Stmt → Prop
  | _, [] => False
  | σ, s :: stmts => (∃ e ∈ s.expr?, e.Applies D bad σ) ∨
      ∃ σ', (s.exec D σ).final = some σ' ∧ stmtsApply σ' stmts

def Program.Applies (σ : Store V) (p : Program) : Prop :=
  stmtsApply D bad σ p.stmts

end

section

variable {V : Type u} {D : Domain V} {σ : Store V}

theorem Expr.not_applies_false (e : Expr) : ¬ e.Applies D (fun _ _ _ => False) σ := by
  induction e with
  | number | identifier => exact id
  | binary op left right ihl ihr =>
    rintro (h | h | ⟨_, _, -, -, h⟩)
    · exact ihl h
    · exact ihr h
    · exact h

theorem not_stmtsApply_false (stmts : List Stmt) :
    ¬ stmtsApply D (fun _ _ _ => False) σ stmts := by
  induction stmts generalizing σ with
  | nil => exact id
  | cons s stmts ih =>
    rintro (⟨e, -, h⟩ | ⟨σ', -, h⟩)
    · exact e.not_applies_false h
    · exact ih h

end

/-! ### Related stores -/

section

variable {V : Type u} {W : Type v} {R : V → W → Prop}

/-- The same variables have values, and related ones. -/
def Store.Related (R : V → W → Prop) (σ : Store V) (σ' : Store W) : Prop :=
  ∀ x, Option.Rel R (σ x) (σ' x)

theorem Store.Related.set {σ : Store V} {σ' : Store W} (h : σ.Related R σ') {a : V} {b : W}
    (hab : R a b) (name : String) : (σ.set name a).Related R (σ'.set name b) := by
  intro x
  unfold Store.set
  split
  · exact .some hab
  · exact h x

theorem Store.Related.exists_of_eq_some {σ : Store V} {σ' : Store W} (h : σ.Related R σ')
    {x : String} {a : V} (ha : σ x = some a) : ∃ b, σ' x = some b ∧ R a b := by
  have hx := h x
  rw [ha] at hx
  cases hσ' : σ' x with
  | none =>
    rw [hσ'] at hx
    cases hx
  | some b =>
    rw [hσ'] at hx
    cases hx with
    | some hab => exact ⟨b, rfl, hab⟩

/-- The relation holds between what numerals stand for, and operators and declarations keep it; an
operator that has a result in the first domain has one in the second, or its operands are bad. -/
structure Domain.Relates (D : Domain V) (D' : Domain W) (bad : BinOp → W → W → Prop)
    (R : V → W → Prop) : Prop where
  numeral : ∀ text, IsNumeral text → R (D.numeral text) (D'.numeral text)
  apply : ∀ {op a b c a' b'}, R a a' → R b b' → D.apply op a b = some c →
    (∃ c', D'.apply op a' b' = some c' ∧ R c c') ∨ bad op a' b'
  declare : ∀ {σ σ'} name ty, Store.Related R σ σ' →
    Store.Related R (D.declare name ty σ) (D'.declare name ty σ')

namespace Domain.Relates

variable {D : Domain V} {D' : Domain W} {bad : BinOp → W → W → Prop} {σ τ : Store V}
  {σ' : Store W}

theorem eval (hD : D.Relates D' bad R) (hσ : σ.Related R σ') {e : Expr} (he : e.Spelled) {a : V}
    (h : e.eval D σ = some a) :
    (∃ b, e.eval D' σ' = some b ∧ R a b) ∨ e.Applies D' bad σ' := by
  induction e generalizing a with
  | number text =>
    obtain rfl := Option.some.inj h
    exact .inl ⟨_, rfl, hD.numeral text he⟩
  | identifier name => exact .inl (hσ.exists_of_eq_some h)
  | binary op left right ihl ihr =>
    obtain ⟨l, hl, h⟩ := Option.bind_eq_some_iff.1 h
    obtain ⟨r, hr, h⟩ := Option.bind_eq_some_iff.1 h
    rcases ihl he.1 hl with ⟨l', hl', hll'⟩ | hbad
    · rcases ihr he.2 hr with ⟨r', hr', hrr'⟩ | hbad
      · rcases hD.apply hll' hrr' h with ⟨b, hb, hab⟩ | hbad
        · refine .inl ⟨b, ?_, hab⟩
          simp only [Expr.eval, hl', hr', hb, Option.bind_eq_bind, Option.bind_some]
        · exact .inr (.inr (.inr ⟨l', r', hl', hr', hbad⟩))
      · exact .inr (.inr (.inl hbad))
    · exact .inr (.inl hbad)

theorem store (hD : D.Relates D' bad R) (hσ : σ.Related R σ') {e : Expr} (he : e.Spelled)
    (name : String) (h : (e.eval D σ).map (σ.set name) = some τ) :
    (∃ τ', (e.eval D' σ').map (σ'.set name) = some τ' ∧ τ.Related R τ') ∨
      e.Applies D' bad σ' := by
  obtain ⟨a, ha, rfl⟩ := Option.map_eq_some_iff.1 h
  rcases hD.eval hσ he ha with ⟨b, hb, hab⟩ | hbad
  · rw [hb]
    exact .inl ⟨_, rfl, hσ.set hab name⟩
  · exact .inr hbad

theorem exec (hD : D.Relates D' bad R) (hσ : σ.Related R σ') {s : Stmt} (hs : s.Spelled)
    (h : (s.exec D σ).final = some τ) :
    (∃ τ', (s.exec D' σ').final = some τ' ∧ τ.Related R τ') ∨
      ∃ e ∈ s.expr?, e.Applies D' bad σ' := by
  cases s with
  | declaration ty name init =>
    cases init with
    | none =>
      obtain rfl := Option.some.inj h
      exact .inl ⟨_, rfl, hD.declare name ty hσ⟩
    | some value =>
      refine (hD.store hσ (hs.2 value rfl) name h).imp id fun hbad => ?_
      exact ⟨value, rfl, hbad⟩
  | assignment name value =>
    refine (hD.store hσ hs.2 name h).imp id fun hbad => ?_
    exact ⟨value, rfl, hbad⟩
  | print name =>
    rw [Stmt.exec] at h ⊢
    cases hname : σ name with
    | none =>
      rw [hname] at h
      cases h
    | some a =>
      rw [hname] at h
      obtain rfl := Option.some.inj h
      obtain ⟨b, hb, -⟩ := hσ.exists_of_eq_some hname
      rw [hb]
      exact .inl ⟨σ', rfl, hσ⟩

/-- A run that reaches its end over the first domain does so over the second, with related values in
all variables, or applies an operator to bad operands. -/
theorem run (hD : D.Relates D' bad R) (hσ : σ.Related R σ') {stmts : List Stmt}
    (hstmts : ∀ s ∈ stmts, s.Spelled) (h : (Ending.run (Stmt.exec D) σ stmts).final = some τ) :
    (∃ τ', (Ending.run (Stmt.exec D') σ' stmts).final = some τ' ∧ τ.Related R τ') ∨
      stmtsApply D' bad σ' stmts := by
  induction stmts generalizing σ σ' with
  | nil =>
    obtain rfl := Option.some.inj h
    exact .inl ⟨σ', rfl, hσ⟩
  | cons s stmts ih =>
    rw [Ending.run_cons, Ending.final_andThen] at h
    obtain ⟨σ₁, hσ₁, h⟩ := Option.bind_eq_some_iff.1 h
    rcases hD.exec hσ (hstmts s (by simp)) hσ₁ with ⟨σ₁', hσ₁', hrel⟩ | hbad
    · rw [Ending.run_cons, Ending.final_andThen, hσ₁']
      rcases ih hrel (fun s hs => hstmts s (by simp [hs])) h with hrun | hbad
      · exact .inl hrun
      · exact .inr (.inr ⟨σ₁', hσ₁', hbad⟩)
    · exact .inr (.inl hbad)

end Domain.Relates

end

end ThreeAddress
