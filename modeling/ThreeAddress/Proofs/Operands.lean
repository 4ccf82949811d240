import ThreeAddress.Compile
import ThreeAddress.Proofs.Emission
import ThreeAddress.Proofs.Initialization
import ThreeAddress.Proofs.Spelling

/-!
# The operands of code

The operands of compiled code are numerals, variables of the symbol table and the temporaries that
the operators of the program take, one each (`within_of_compile`); every declared variable and
every such temporary does occur. Only a variable called `t` and a number can be spelled like
another operand, the temporary with that number (`render_eq_cases`).
-/

namespace ThreeAddress

/-! ### Operands -/

/-- The operands of an instruction, among them the name that it declares or prints. -/
def Instr.operands : Instr → List Operand
  | declare name _ | print name => [.name name]
  | copy dst src => [dst, src]
  | binary dst _ left right => [dst, left, right]

def codeOperands (code : List Instr) : List Operand :=
  code.flatMap Instr.operands

/-- A text that satisfies `P`, or a temporary below `n`. -/
def Operand.Within (P : String → Prop) (n : Nat) : Operand → Prop
  | name text => P text
  | temp k => k < n

namespace Operand

theorem render_temp_injective {m n : Nat} (h : (temp m).render = (temp n).render) : m = n := by
  have hrepr : Nat.repr m = Nat.repr n := (String.append_right_inj "t").1 h
  have hdigits := congrArg String.toList hrepr
  rw [Nat.toList_repr, Nat.toList_repr] at hdigits
  have hvalue := congrArg (Nat.ofDigitChars 10 · 0) hdigits
  simpa [Nat.ofDigitChars_toDigits] using hvalue

theorem toList_render_temp (n : Nat) : (temp n).render.toList = 't' :: Nat.toDigits 10 n := by
  simp [render, Nat.toList_repr]

theorem not_isNumeral_render_temp (n : Nat) : ¬ IsNumeral (temp n).render := by
  intro h
  have hdigit : Char.isDigit 't' = true := h.isDigit_head (toList_render_temp n)
  exact absurd hdigit (by decide)

end Operand

section

variable {P : String → Prop} {n k N : Nat}

theorem Expr.within_place {e : Expr} (he : e.Texts P P) (hN : n + e.operators ≤ N) :
    (e.place n).Within P N := by
  cases e with
  | number | identifier => exact he
  | binary op left right =>
    rw [operators] at hN
    show n + left.operators + right.operators < N
    omega

theorem Expr.within_codeFrom {e : Expr} (he : e.Texts P P) (hN : n + e.operators ≤ N) :
    ∀ o ∈ codeOperands (e.codeFrom n), o.Within P N := by
  induction e generalizing n with
  | number | identifier => simp [codeOperands, codeFrom]
  | binary op left right ihl ihr =>
    rw [operators] at hN
    have hleft := left.within_place he.1 (n := n) (N := N) (by omega)
    have hright := right.within_place he.2 (n := n + left.operators) (N := N) (by omega)
    intro o ho
    rw [codeOperands, codeFrom, List.flatMap_append, List.flatMap_append] at ho
    rcases List.mem_append.1 ho with ho | ho
    · rcases List.mem_append.1 ho with ho | ho
      · exact ihl he.1 (by omega) o ho
      · exact ihr he.2 (by omega) o ho
    · rcases (by simpa [Instr.operands] using ho : _ ∨ _ ∨ _) with rfl | rfl | rfl
      · show n + left.operators + right.operators < N
        omega
      · exact hleft
      · exact hright

theorem within_store {e : Expr} {name : String} (hname : P name) (he : e.Texts P P)
    (hN : n + e.operators ≤ N) :
    ∀ o ∈ codeOperands (e.codeFrom n ++ [.copy (.name name) (e.place n)]), o.Within P N := by
  intro o ho
  rw [codeOperands, List.flatMap_append] at ho
  rcases List.mem_append.1 ho with ho | ho
  · exact e.within_codeFrom he hN o ho
  · rcases (by simpa [Instr.operands] using ho : _ ∨ _) with rfl | rfl
    · exact hname
    · exact e.within_place he hN

theorem Stmt.within_codeFrom {s : Stmt} (hs : s.Texts P P) (hN : n + s.operators ≤ N) :
    ∀ o ∈ codeOperands (s.codeFrom n), o.Within P N := by
  cases s with
  | declaration ty name init =>
    cases init with
    | none =>
      intro o ho
      obtain rfl : o = .name name := List.mem_singleton.1 ho
      exact hs.1
    | some value => exact within_store hs.1 (hs.2 value rfl) hN
  | assignment name value => exact within_store hs.1 hs.2 hN
  | print name =>
    intro o ho
    obtain rfl : o = .name name := List.mem_singleton.1 ho
    exact hs

/-- The operands of the code are texts of the program and the temporaries that it takes. -/
theorem within_stmtsCodeFrom {stmts : List Stmt} (h : ∀ s ∈ stmts, s.Texts P P)
    (hN : n + stmtsOperators stmts ≤ N) :
    ∀ o ∈ codeOperands (stmtsCodeFrom n stmts), o.Within P N := by
  induction stmts generalizing n with
  | nil => simp [codeOperands, stmtsCodeFrom]
  | cons s stmts ih =>
    rw [stmtsOperators] at hN
    intro o ho
    rw [codeOperands, stmtsCodeFrom, List.flatMap_append] at ho
    rcases List.mem_append.1 ho with ho | ho
    · exact s.within_codeFrom (h s (by simp)) (by omega) o ho
    · exact ih (fun s hs => h s (by simp [hs])) (by omega) o ho

theorem Expr.temp_mem_codeFrom (e : Expr) (hn : n ≤ k) (hk : k < n + e.operators) :
    .temp k ∈ codeOperands (e.codeFrom n) := by
  induction e generalizing n with
  | number | identifier =>
    rw [operators] at hk
    omega
  | binary op left right ihl ihr =>
    rw [operators] at hk
    rw [codeOperands, codeFrom, List.flatMap_append, List.flatMap_append]
    by_cases hleft : k < n + left.operators
    · exact List.mem_append_left _ (List.mem_append_left _ (ihl hn hleft))
    by_cases hright : k < n + left.operators + right.operators
    · exact List.mem_append_left _ (List.mem_append_right _ (ihr (by omega) hright))
    · obtain rfl : k = n + left.operators + right.operators := by omega
      exact List.mem_append_right _ (by simp [Instr.operands])

theorem Stmt.temp_mem_codeFrom (s : Stmt) (hn : n ≤ k) (hk : k < n + s.operators) :
    .temp k ∈ codeOperands (s.codeFrom n) := by
  have hstore : ∀ (name : String) (e : Expr), k < n + e.operators →
      .temp k ∈ codeOperands (e.codeFrom n ++ [.copy (.name name) (e.place n)]) := by
    intro name e hk
    rw [codeOperands, List.flatMap_append]
    exact List.mem_append_left _ (e.temp_mem_codeFrom hn hk)
  cases s with
  | declaration ty name init =>
    cases init with
    | none =>
      rw [operators] at hk
      omega
    | some value => exact hstore name value hk
  | assignment name value => exact hstore name value hk
  | print name =>
    rw [operators] at hk
    omega

/-- Every temporary that the code takes is an operand of it. -/
theorem temp_mem_stmtsCodeFrom (stmts : List Stmt) (hn : n ≤ k)
    (hk : k < n + stmtsOperators stmts) : .temp k ∈ codeOperands (stmtsCodeFrom n stmts) := by
  induction stmts generalizing n with
  | nil =>
    rw [stmtsOperators] at hk
    omega
  | cons s stmts ih =>
    rw [stmtsOperators] at hk
    rw [codeOperands, stmtsCodeFrom, List.flatMap_append]
    by_cases hs : k < n + s.operators
    · exact List.mem_append_left _ (s.temp_mem_codeFrom hn hs)
    · exact List.mem_append_right _ (ih (by omega) (by omega))

theorem name_mem_stmtsCodeFrom {stmts : List Stmt} {s : Stmt} {x : String} (hs : s ∈ stmts)
    (hx : s.Declares x) : .name x ∈ codeOperands (stmtsCodeFrom n stmts) := by
  induction stmts generalizing n with
  | nil => cases hs
  | cons s' stmts ih =>
    rw [codeOperands, stmtsCodeFrom, List.flatMap_append]
    rcases List.mem_cons.1 hs with rfl | hs
    · refine List.mem_append_left _ ?_
      cases s with
      | declaration ty name init =>
        obtain rfl : name = x := hx
        cases init <;> simp [Stmt.codeFrom, Instr.operands]
      | assignment => exact hx.elim
      | print => exact hx.elim
    · exact List.mem_append_right _ (ih hs)

end

/-! ### The operands of a compiled text -/

theorem Expr.texts_of_names {name : String → Prop} {e : Expr} (h : ∀ x ∈ e.names, name x) :
    e.Texts (fun _ => True) name := by
  induction e with
  | number => trivial
  | identifier x => exact h x (by simp [names])
  | binary op left right ihl ihr =>
    exact ⟨ihl fun x hx => h x (by simp [names, hx]), ihr fun x hx => h x (by simp [names, hx])⟩

theorem Stmt.texts_of_names {name : String → Prop} {s : Stmt} (h : ∀ x ∈ s.names, name x) :
    s.Texts (fun _ => True) name := by
  cases s with
  | declaration ty x init =>
    refine ⟨h x (by simp [names]), ?_⟩
    rintro e ⟨⟩
    exact Expr.texts_of_names fun y hy => h y (by simp [names, expr?, hy])
  | assignment x value =>
    exact ⟨h x (by simp [names]), Expr.texts_of_names fun y hy => h y (by simp [names, expr?, hy])⟩
  | print x => exact h x (by simp [names])

/-- A numeral, or one of the given names. -/
def IsOperandText (names : List String) (text : String) : Prop :=
  IsNumeral text ∨ (IsName text ∧ text ∈ names)

/-- An operand of the code of a compiled text is a numeral, one of its variables, or one of the
temporaries that its operators take. -/
theorem within_of_compile {source : String} {out : Compilation} (h : compile source = .ok out) :
    ∀ o ∈ codeOperands out.code, o.Within (IsOperandText (out.symbols.toList.map Entry.name))
      (stmtsOperators out.program.stmts) := by
  obtain ⟨p, hp, hfault, rfl⟩ := compile_eq_ok_iff.1 h
  have htexts := named_of_parse hp
  show ∀ o ∈ codeOperands p.code, _
  rw [Program.code_eq]
  refine within_stmtsCodeFrom (fun s hs => ?_) (Nat.le_of_eq (Nat.zero_add _))
  have hnames : s.Texts (fun _ => True)
      (fun x => x ∈ (SymbolTable.empty.analyze p.stmts).table.toList.map Entry.name) :=
    Stmt.texts_of_names fun x hx => mem_analyze_of_mem_names hfault hs hx
  exact (htexts s hs).imp₂ hnames (fun _ hx _ => .inl hx) fun _ hx hmem => .inr ⟨hx, hmem⟩

/-- Only a temporary and a variable can be different operands of one spelling. -/
theorem render_eq_cases {names : List String} {n : Nat} {a b : Operand}
    (ha : a.Within (IsOperandText names) n) (hb : b.Within (IsOperandText names) n)
    (h : a.render = b.render) (hne : a ≠ b) :
    ∃ k < n, (Operand.temp k).render ∈ names ∧
      ((a = .temp k ∧ b = .name (Operand.temp k).render) ∨
        (a = .name (Operand.temp k).render ∧ b = .temp k)) := by
  cases a with
  | name x =>
    cases b with
    | name y => exact absurd (congrArg Operand.name h) hne
    | temp k =>
      obtain rfl : x = (Operand.temp k).render := h
      rcases ha with hnum | ⟨-, hmem⟩
      · exact absurd hnum (Operand.not_isNumeral_render_temp k)
      · exact ⟨k, hb, hmem, .inr ⟨rfl, rfl⟩⟩
  | temp k =>
    cases b with
    | name y =>
      obtain rfl : (Operand.temp k).render = y := h
      rcases hb with hnum | ⟨-, hmem⟩
      · exact absurd hnum (Operand.not_isNumeral_render_temp k)
      · exact ⟨k, ha, hmem, .inl ⟨rfl, rfl⟩⟩
    | temp l => exact absurd (congrArg Operand.temp (Operand.render_temp_injective h)) hne

end ThreeAddress
