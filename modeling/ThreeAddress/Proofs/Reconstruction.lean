import Mathlib.Algebra.Field.Rat
import ThreeAddress.Proofs.Printing
import ThreeAddress.Proofs.RelatedRuns
import ThreeAddress.Proofs.Symbolic

/-!
# What a recorded text means

The text that the symbol table records for a variable is the expression that the program computes
for it, printed without brackets. Over the domain `trees` a run computes this expression itself,
every variable in it replaced by the expression stored there, and over `rationals` its value. Read
back, the text has the same operands and operators, grouped by the grammar alone
(`Expr.regrouped`), so its value is that of the expression where no brackets are missing
(`Expr.bracketFree`, `Expr.Denotes.regrouped`).
-/

namespace ThreeAddress

universe u

/-! ### Trees and rational numbers as values -/

/-- Values of any type; the content of a variable that is not initialized is `none`, and an operator
needs the values of both operands. -/
def initializable {W : Type u} (numeral : String → W) (apply : BinOp → W → W → Option W) :
    Domain (Option W) where
  numeral text := some (numeral text)
  apply op
    | some l, some r => (apply op l r).map some
    | _, _ => none
  declare name _ σ := σ.set name none

theorem initializable_apply_eq_some_iff {W : Type u} {numeral : String → W}
    {apply : BinOp → W → W → Option W} {op : BinOp} {a b c : Option W} :
    (initializable numeral apply).apply op a b = some c ↔
      ∃ l r v, a = some l ∧ b = some r ∧ apply op l r = some v ∧ c = some v := by
  constructor
  · intro h
    match a, b with
    | some l, some r =>
      obtain ⟨v, hv, rfl⟩ := Option.map_eq_some_iff.1 h
      exact ⟨l, r, v, rfl, rfl, hv, rfl⟩
    | some _, none => cases h
    | none, _ => cases h
  · rintro ⟨l, r, v, rfl, rfl, hv, rfl⟩
    exact Option.map_eq_some_iff.2 ⟨v, hv, rfl⟩

/-- Expressions as values: nothing is computed, and every operator has a result. -/
def trees : Domain (Option Expr) :=
  initializable .number fun op l r => some (.binary op l r)

/-- Exact arithmetic, in which only a division by zero has no result. -/
def BinOp.rational : BinOp → ℚ → ℚ → Option ℚ
  | add, l, r => some (l + r)
  | sub, l, r => some (l - r)
  | mul, l, r => some (l * r)
  | div, l, r => if r = 0 then none else some (l / r)

/-- The number that a numeral stands for, from its digits before and behind the point. -/
def numeralValue (text : String) : ℚ :=
  let whole := text.toList.takeWhile Char.isDigit
  let fraction := (text.toList.dropWhile Char.isDigit).tail
  Nat.ofDigitChars 10 (whole ++ fraction) 0 / 10 ^ fraction.length

def rationals : Domain (Option ℚ) :=
  initializable numeralValue BinOp.rational

def ZeroDivision (op : BinOp) (_ right : Option ℚ) : Prop :=
  op = .div ∧ right = some 0

theorem BinOp.rational_eq_none_iff {op : BinOp} {l r : ℚ} :
    op.rational l r = none ↔ op = .div ∧ r = 0 := by
  cases op <;> simp [rational]

/-! ### The value of a regrouped expression -/

namespace Expr

/-- Whether the expression can be written without brackets: no sum or difference is the right
operand of `-` or an operand of `*` or `/`, and only a single operand is the right one of `/`. -/
def bracketFree : Expr → Bool
  | binary op left right =>
    left.bracketFree && right.bracketFree &&
      match op with
      | .add => true
      | .sub => !right.isSum
      | .mul => !left.isSum && !right.isSum
      | .div => !left.isSum && right.isOperand
  | _ => true

theorem isMultiplicative_of_mem_links {e : Expr} (he : e.bracketFree = true)
    (hsum : e.isSum = false) : ∀ l ∈ e.links, l.1.isMultiplicative = true := by
  induction e with
  | number | identifier => simp [links]
  | binary op left right ihl ihr =>
    obtain ⟨⟨hleft, hright⟩, hop⟩ := by simpa [bracketFree] using he
    have hmul : op.isMultiplicative = true := by simpa [isSum] using hsum
    have hsums : left.isSum = false ∧ right.isSum = false := by
      cases op with
      | add | sub => cases hmul
      | mul => simpa using hop
      | div =>
        obtain ⟨hleft, hright⟩ : left.isSum = false ∧ right.isOperand = true := by simpa using hop
        cases right with
        | number | identifier => exact ⟨hleft, rfl⟩
        | binary => cases hright
    intro l hl
    rw [links, List.mem_append, List.mem_cons] at hl
    rcases hl with hl | rfl | hl
    · exact ihl hleft hsums.1 l hl
    · exact hmul
    · exact ihr hright hsums.2 l hl

theorem regrouped_of_product {e : Expr} (he : e.bracketFree = true) (hsum : e.isSum = false) :
    e.regrouped = chainProduct e.first e.links :=
  assemble_of_mul (isMultiplicative_of_mem_links he hsum) id e.first

/-- `+` and `-` take what stands before them as a whole. -/
theorem regrouped_add {op : BinOp} (hop : op.isMultiplicative = false) (left right : Expr) :
    (binary op left right).regrouped =
      assemble (.binary op left.regrouped) right.first right.links :=
  assemble_append_of_add hop left.links id left.first right.first right.links

theorem regrouped_mul {op : BinOp} (hop : op.isMultiplicative = true) {left : Expr}
    (hleft : left.bracketFree = true) (hsum : left.isSum = false) (right : Expr) :
    (binary op left right).regrouped =
      assemble id (.binary op left.regrouped right.first) right.links := by
  have hlinks := isMultiplicative_of_mem_links hleft hsum
  rw [regrouped_of_product hleft hsum, regrouped, first, links, assemble_append_of_mul hlinks,
    assemble, if_pos hop]

/-- The expression has the value `q`. -/
def Denotes (σ : Store (Option ℚ)) (e : Expr) (q : ℚ) : Prop :=
  e.eval rationals σ = some (some q)

variable {σ : Store (Option ℚ)} {op : BinOp} {a b q : ℚ}

theorem denotes_binary_iff {left right : Expr} :
    (binary op left right).Denotes σ q ↔
      ∃ a b, left.Denotes σ a ∧ right.Denotes σ b ∧ op.rational a b = some q := by
  constructor
  · intro h
    obtain ⟨l, hl, h⟩ := Option.bind_eq_some_iff.1 h
    obtain ⟨r, hr, h⟩ := Option.bind_eq_some_iff.1 h
    obtain ⟨a, b, v, rfl, rfl, hv, ⟨⟩⟩ := initializable_apply_eq_some_iff.1 h
    exact ⟨a, b, hl, hr, hv⟩
  · rintro ⟨a, b, hl, hr, hq⟩
    have happly : rationals.apply op (some a) (some b) = some (some q) :=
      initializable_apply_eq_some_iff.2 ⟨a, b, q, rfl, rfl, hq, rfl⟩
    rw [Denotes] at hl hr
    simp only [Denotes, eval, hl, hr, happly, Option.bind_eq_bind, Option.bind_some]

theorem rational_add_left (hop : op.isMultiplicative = false) (h : op.rational a b = some q)
    (c : ℚ) : op.rational (c + a) b = some (c + q) := by
  cases op with
  | add =>
    obtain rfl := Option.some.inj h
    exact congrArg some (add_assoc c a b)
  | sub =>
    obtain rfl := Option.some.inj h
    exact congrArg some (add_sub_assoc c a b)
  | mul | div => cases hop

theorem rational_mul_left (hop : op.isMultiplicative = true) (h : op.rational a b = some q)
    (c : ℚ) : op.rational (c * a) b = some (c * q) := by
  cases op with
  | add | sub => cases hop
  | mul =>
    obtain rfl := Option.some.inj h
    exact congrArg some (mul_assoc c a b)
  | div =>
    rw [BinOp.rational] at h ⊢
    split at h
    · cases h
    · next hb =>
      obtain rfl := Option.some.inj h
      rw [if_neg hb, mul_div_assoc]

/-- What is added in front of a chain is added to its value. -/
theorem Denotes.assemble_add {c : ℚ} {sum sum' : Expr → Expr}
    (hsum : ∀ e q, (sum e).Denotes σ q → (sum' e).Denotes σ (c + q)) {product : Expr}
    {links : List (BinOp × Expr)} (h : (assemble sum product links).Denotes σ q) :
    (assemble sum' product links).Denotes σ (c + q) := by
  induction links generalizing sum sum' product with
  | nil => exact hsum product q h
  | cons l links ih =>
    rw [assemble] at h ⊢
    split at h
    · next hop =>
      rw [if_pos hop]
      exact ih hsum h
    · next hop =>
      rw [if_neg hop]
      refine ih (fun e q he => ?_) h
      obtain ⟨a, b, ha, hb, hq⟩ := denotes_binary_iff.1 he
      exact denotes_binary_iff.2 ⟨c + a, b, hsum product a ha, hb,
        rational_add_left (Bool.eq_false_iff.2 hop) hq c⟩

/-- What a product is multiplied with in front multiplies its value. -/
theorem Denotes.chainProduct_mul {c : ℚ} {product product' : Expr}
    (hproduct : ∀ q, product.Denotes σ q → product'.Denotes σ (c * q))
    {links : List (BinOp × Expr)} (hlinks : ∀ l ∈ links, l.1.isMultiplicative = true)
    (h : (chainProduct product links).Denotes σ q) :
    (chainProduct product' links).Denotes σ (c * q) := by
  induction links generalizing product product' with
  | nil => exact hproduct q h
  | cons l links ih =>
    refine ih (fun q hq => ?_) (fun l' hl' => hlinks l' (by simp [hl'])) h
    obtain ⟨a, b, ha, hb, hq⟩ := denotes_binary_iff.1 hq
    exact denotes_binary_iff.2 ⟨c * a, b, hproduct a ha, hb,
      rational_mul_left (hlinks l (by simp)) hq c⟩

/-- Grouping an expression anew keeps its value if no brackets are missing. -/
theorem Denotes.regrouped {e : Expr} (h : e.Denotes σ q) (he : e.bracketFree = true) :
    e.regrouped.Denotes σ q := by
  induction e generalizing q with
  | number | identifier => exact h
  | binary op left right ihl ihr =>
    obtain ⟨a, b, ha, hb, hq⟩ := denotes_binary_iff.1 h
    obtain ⟨⟨hleft, hright⟩, hop⟩ := by simpa [bracketFree] using he
    have hl := ihl ha hleft
    have hr := ihr hb hright
    cases op with
    | add =>
      obtain rfl := Option.some.inj hq
      rw [regrouped_add rfl]
      refine Denotes.assemble_add (fun e q he => ?_) hr
      exact denotes_binary_iff.2 ⟨a, q, hl, he, rfl⟩
    | sub =>
      have hsum : right.isSum = false := by simpa using hop
      rw [regrouped_add rfl, assemble_of_mul (isMultiplicative_of_mem_links hright hsum),
        ← regrouped_of_product hright hsum]
      exact denotes_binary_iff.2 ⟨a, b, hl, hr, hq⟩
    | mul =>
      obtain ⟨hsum, hsum'⟩ : left.isSum = false ∧ right.isSum = false := by simpa using hop
      have hlinks := isMultiplicative_of_mem_links hright hsum'
      obtain rfl := Option.some.inj hq
      rw [regrouped_of_product hright hsum'] at hr
      rw [regrouped_mul rfl hleft hsum, assemble_of_mul hlinks]
      refine Denotes.chainProduct_mul (fun q hq => ?_) hlinks hr
      exact denotes_binary_iff.2 ⟨a, q, hl, hq, rfl⟩
    | div =>
      obtain ⟨hsum, hoperand⟩ : left.isSum = false ∧ right.isOperand = true := by simpa using hop
      rw [regrouped_mul rfl hleft hsum]
      cases right with
      | number | identifier => exact denotes_binary_iff.2 ⟨a, b, hl, hb, hq⟩
      | binary => cases hoperand

-- each of the five rules is needed: `4 - (1 + 2)`, `(1 + 2) * 3`, `3 * (1 + 2)`, `(1 + 2) / 3` and
-- `1 / (2 * 3)` have other values without the brackets
example : ∀ e ∈ [binary .sub (.number "4") (.binary .add (.number "1") (.number "2")),
    binary .mul (.binary .add (.number "1") (.number "2")) (.number "3"),
    binary .mul (.number "3") (.binary .add (.number "1") (.number "2")),
    binary .div (.binary .add (.number "1") (.number "2")) (.number "3"),
    binary .div (.number "1") (.binary .mul (.number "2") (.number "3"))],
    e.regrouped.eval rationals (fun _ => none) ≠ e.eval rationals fun _ => none := by
  decide +kernel

end Expr

/-! ### Runs over texts, trees and rational numbers -/

/-- The content is the text of the tree, which has no variables. -/
def Prints (text : Option String) (tree : Option Expr) : Prop :=
  Option.Rel (fun s e => s = e.inorder ∧ e.Texts IsNumeral (fun _ => False)) text tree

theorem relates_symbolic_trees :
    symbolic.Relates trees (fun _ _ _ => False) Prints where
  numeral text htext := .some ⟨rfl, htext⟩
  apply := by
    intro op a b c a' b' ha hb h
    cases ha with
    | none => cases h
    | @some l l' hl =>
      cases hb with
      | none => cases h
      | @some r r' hr =>
        obtain rfl := Option.some.inj h
        refine .inl ⟨_, rfl, .some ⟨?_, hl.2, hr.2⟩⟩
        rw [hl.1, hr.1, Expr.inorder]
  declare name ty h := h.set .none name

/-- The number is the value of the tree, whatever the variables hold. -/
def Amounts (tree : Option Expr) (value : Option ℚ) : Prop :=
  Option.Rel (fun e q => ∀ σ, e.Denotes σ q) tree value

theorem relates_trees_rationals : trees.Relates rationals ZeroDivision Amounts where
  numeral text _ := .some fun σ => rfl
  apply := by
    intro op a b c a' b' ha hb h
    obtain ⟨l, r, _, rfl, rfl, ⟨⟩, rfl⟩ := initializable_apply_eq_some_iff.1 h
    cases ha with
    | @some _ p hl =>
    cases hb with
    | @some _ q hr =>
    cases hv : op.rational p q with
    | none =>
      obtain ⟨hop, hzero⟩ := BinOp.rational_eq_none_iff.1 hv
      exact .inr ⟨hop, congrArg some hzero⟩
    | some v =>
      refine .inl ⟨some v, initializable_apply_eq_some_iff.2 ⟨p, q, v, rfl, rfl, hv, rfl⟩, ?_⟩
      exact .some fun σ => Expr.denotes_binary_iff.2 ⟨p, q, hl σ, hr σ, hv⟩
  declare name ty h := h.set .none name

/-! ### Compiled texts -/

theorem isName_of_mem_symbols {p : Program} {source : String}
    (hp : parse (tokenize source) = .ok p)
    (hfault : (SymbolTable.empty.analyze p.stmts).fault = none) {e : Entry}
    (he : e ∈ (SymbolTable.empty.analyze p.stmts).table.toList) : IsName e.name := by
  have htexts := named_of_parse hp
  obtain ⟨s, hs, hdecl⟩ := (mem_analyze_iff hfault).1 (List.mem_map_of_mem he)
  cases s with
  | declaration ty name init =>
    obtain rfl : name = e.name := hdecl
    exact (htexts _ hs).1
  | assignment => exact hdecl.elim
  | print => exact hdecl.elim

/-- The text recorded for a variable of a compiled text reads back as an expression, the tree that
the program computes for the variable with its operands and operators grouped anew. Unless the
program divides by zero, it leaves a number in the variable, and this number is the value of what
was read back if the tree can be written without brackets. -/
theorem recorded_text_denotes {source : String} {out : Compilation}
    (h : compile source = .ok out) {e : Entry} (he : e ∈ out.symbols.toList) {text : String}
    (htext : e.value.text? = some text) :
    ∃ τ tree, (out.program.exec trees fun _ => none).final = some τ ∧
      τ e.name = some (some tree) ∧
      parse (tokenize (e.name ++ " = " ++ text ++ ";")) =
        .ok ⟨[.assignment e.name tree.regrouped]⟩ ∧
      (¬ out.program.Applies rationals ZeroDivision (fun _ => none) →
        ∃ ρ q, (out.program.exec rationals fun _ => none).final = some ρ ∧
          ρ e.name = some (some q) ∧
          (tree.bracketFree = true →
            ∀ σ, tree.regrouped.eval rationals σ = some (some q))) := by
  obtain ⟨p, hp, hfault, rfl⟩ := compile_eq_ok_iff.1 h
  have hempty : SymbolTable.empty.Mirrors fun _ => none := by simp [SymbolTable.Mirrors]
  have hspelled := spelled_of_parse hp
  obtain ⟨σ, hrun, hσ⟩ := SymbolTable.exists_run_symbolic hempty hfault
  have hcontent : σ e.name = some (some text) := by
    rw [hσ.of_mem he, htext]
  -- over trees the program runs like over texts, as no operator fails there
  obtain ⟨τ, htrees, hτ⟩ :=
    (relates_symbolic_trees.run (fun _ => .none) hspelled hrun).resolve_right
      (not_stmtsApply_false _)
  obtain ⟨_, hname, hprints⟩ := hτ.exists_of_eq_some hcontent
  cases hprints with
  | @some _ tree htree =>
  obtain ⟨rfl, hclosed⟩ := htree
  have htexts : tree.Texts IsNumeral IsName :=
    hclosed.imp₂ hclosed (fun _ h _ => h) fun _ h _ => h.elim
  refine ⟨τ, tree, htrees, hname,
    parse_tokenize_assignment (isName_of_mem_symbols hp hfault he) htexts, fun hdiv => ?_⟩
  obtain ⟨ρ, hrationals, hρ⟩ :=
    (relates_trees_rationals.run (fun _ => .none) hspelled htrees).resolve_right hdiv
  obtain ⟨_, hvalue, hamounts⟩ := hρ.exists_of_eq_some hname
  cases hamounts with
  | @some _ q hq =>
  exact ⟨ρ, q, hrationals, hvalue, fun hfree σ => (hq σ).regrouped hfree⟩

/-- The sum in `a` is added to another number: `2.5 + (1 + 6 / 4)` is recorded as
`2.5 + 1 + 6 / 4`. -/
theorem recorded_text_denotes_sum :
    ∃ out tree, compile "float a = 1 + 6 / 4; float b = 2.5 + a;" = .ok out ∧
      ⟨"b", .float, .composed "2.5 + 1 + 6 / 4"⟩ ∈ out.symbols.toList ∧
      ((out.program.exec trees fun _ => none).final.bind fun τ => τ "b") = some (some tree) ∧
      parse (tokenize "b = 2.5 + 1 + 6 / 4;") = .ok ⟨[.assignment "b" tree.regrouped]⟩ ∧
      ¬ out.program.Applies rationals ZeroDivision (fun _ => none) ∧ tree.bracketFree = true ∧
      ((out.program.exec rationals fun _ => none).final.bind fun ρ => ρ "b") = some (some 5) ∧
      ∀ σ, tree.regrouped.eval rationals σ = some (some 5) := by
  obtain ⟨p, hstmts⟩ : ∃ p : Program, p = ⟨[.declaration .float "a" (some (.binary .add
      (.number "1") (.binary .div (.number "6") (.number "4")))),
      .declaration .float "b" (some (.binary .add (.number "2.5") (.identifier "a")))]⟩ :=
    ⟨_, rfl⟩
  have hp : parse (tokenize "float a = 1 + 6 / 4; float b = 2.5 + a;") = .ok p := by
    rw [hstmts]
    decide +kernel
  have htable : (SymbolTable.empty.analyze p.stmts).fault = none ∧
      ⟨"b", .float, .composed "2.5 + 1 + 6 / 4"⟩ ∈
        (SymbolTable.empty.analyze p.stmts).table.toList := by
    simp [hstmts, SymbolTable.analyze, SymbolTable.check, SymbolTable.evaluate, SymbolTable.empty,
      SymbolTable.declare?, SymbolTable.isDefined, SymbolTable.get?, SymbolTable.toList,
      Effect.apply, Value.combine, Value.text?, BinOp.symbol, Except.map, bind, Except.bind]
  have hfour : numeralValue "4" ≠ 0 := by decide +kernel
  have hdiv : ¬ p.Applies rationals ZeroDivision (fun _ => none) := by
    simp [hstmts, Program.Applies, stmtsApply, Stmt.expr?, Expr.Applies, ZeroDivision, Expr.eval,
      rationals, initializable, hfour]
  have hout := compile_eq_ok_iff.2 ⟨p, hp, htable.1, rfl⟩
  obtain ⟨τ, tree, hτ, htree, hparse, hvalue⟩ := recorded_text_denotes hout htable.2 rfl
  obtain ⟨ρ, q, hρ, hq, hregrouped⟩ := hvalue hdiv
  have htrees : ((p.exec trees fun _ => none).final.bind fun τ => τ "b") = some (some tree) := by
    rw [hτ]
    exact htree
  have hrationals : ((p.exec rationals fun _ => none).final.bind fun ρ => ρ "b") =
      some (some q) := by
    rw [hρ]
    exact hq
  have hfree : tree.bracketFree = true := by
    have hall : ∀ t ∈ ((p.exec trees fun _ => none).final.bind fun τ => τ "b").join,
        t.bracketFree = true := by
      rw [hstmts]
      decide +kernel
    exact hall tree (by rw [htrees]; rfl)
  have hfive : ((p.exec rationals fun _ => none).final.bind fun ρ => ρ "b") = some (some 5) := by
    rw [hstmts]
    decide +kernel
  obtain rfl : q = 5 := by simpa [hfive, eq_comm] using hrationals
  exact ⟨_, tree, hout, htable.2, htrees, hparse, hdiv, hfree, hfive, hregrouped hfree⟩

/-- The sum in `a` is multiplied: the program leaves 9 in `b`, and the text recorded for it means
7. -/
theorem recorded_text_misleads :
    ∃ out rhs, compile "int a = 1 + 2; int b = a * 3;" = .ok out ∧
      ⟨"b", .int, .composed "1 + 2 * 3"⟩ ∈ out.symbols.toList ∧
      ¬ out.program.Applies rationals ZeroDivision (fun _ => none) ∧
      ((out.program.exec rationals fun _ => none).final.bind fun ρ => ρ "b") = some (some 9) ∧
      parse (tokenize "b = 1 + 2 * 3;") = .ok ⟨[.assignment "b" rhs]⟩ ∧
      rhs.eval rationals (fun _ => none) = some (some 7) := by
  have hp : parse (tokenize "int a = 1 + 2; int b = a * 3;") = .ok
      ⟨[.declaration .int "a" (some (.binary .add (.number "1") (.number "2"))),
        .declaration .int "b" (some (.binary .mul (.identifier "a") (.number "3")))]⟩ := by
    decide +kernel
  have hrhs : parse (tokenize "b = 1 + 2 * 3;") = .ok ⟨[.assignment "b" (.binary .add
      (.number "1") (.binary .mul (.number "2") (.number "3")))]⟩ := by
    decide +kernel
  have hout := compile_eq_ok_iff.2 ⟨_, hp, ?_, rfl⟩
  · refine ⟨_, _, hout, ?_, ?_, by decide +kernel, hrhs, by decide +kernel⟩
    · simp [SymbolTable.analyze, SymbolTable.check, SymbolTable.evaluate, SymbolTable.empty,
        SymbolTable.declare?, SymbolTable.isDefined, SymbolTable.get?, SymbolTable.toList,
        Effect.apply, Value.combine, Value.text?, BinOp.symbol, Except.map, bind, Except.bind]
    · simp [Program.Applies, stmtsApply, Stmt.expr?, Expr.Applies, ZeroDivision]
  · simp [SymbolTable.analyze, SymbolTable.check, SymbolTable.evaluate, SymbolTable.empty,
      SymbolTable.declare?, SymbolTable.isDefined, SymbolTable.get?, Effect.apply, Value.combine,
      Value.text?, Except.map, bind, Except.bind]

end ThreeAddress
