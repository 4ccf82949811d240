import ThreeAddress.Proofs.Table

/-!
# Well-formed programs

A program is well-formed if each of its statements is `Admissible` at its position: what it may
declare and use is said by positions of earlier statements only, and whether a variable is
initialized by the last statement that wrote it (`InitializedAt`), without any table.

Analysis from the empty table passes exactly the well-formed programs. The invariant is `Reflects`:
after `i` statements the table defines the variables declared before `i` and holds a value for those
initialized at `i`. From there on the statements pass exactly if they are admissible
(`Reflects.fault_eq_none_iff`).
-/

namespace ThreeAddress

/-! ### Names in expressions and statements -/

def Expr.names : Expr → List String
  | number _ => []
  | identifier name => [name]
  | binary _ left right => left.names ++ right.names

/-- The name that a whole expression is. -/
def Expr.name? : Expr → Option String
  | identifier name => some name
  | number _ | binary _ _ _ => none

/-- The names that are operands of an operator themselves. -/
def Expr.operandNames : Expr → List String
  | number _ | identifier _ => []
  | binary _ left right =>
    left.name?.toList ++ right.name?.toList ++ (left.operandNames ++ right.operandNames)

namespace Stmt

def expr? : Stmt → Option Expr
  | declaration _ _ init => init
  | assignment _ value => some value
  | print _ => none

def Declares (x : String) : Stmt → Prop
  | declaration _ name _ => name = x
  | assignment _ _ | print _ => False

/-- The statement assigns to `x` or prints it. -/
def Uses (x : String) : Stmt → Prop
  | declaration _ _ _ => False
  | assignment name _ | print name => name = x

/-- The statement declares `x` or assigns to it, with `value` as its expression, if any. -/
def Writes (x : String) (value : Option Expr) : Stmt → Prop
  | declaration _ name init => name = x ∧ init = value
  | assignment name e => name = x ∧ some e = value
  | print _ => False

theorem Writes.value_eq {s : Stmt} {x : String} {value value' : Option Expr}
    (h : s.Writes x value) (h' : s.Writes x value') : value = value' := by
  cases s with
  | declaration => exact h.2.symm.trans h'.2
  | assignment => exact h.2.symm.trans h'.2
  | print => exact h.elim

theorem Writes.name_eq {s : Stmt} {x y : String} {value value' : Option Expr}
    (h : s.Writes x value) (h' : s.Writes y value') : x = y := by
  cases s with
  | declaration => exact h.1.symm.trans h'.1
  | assignment => exact h.1.symm.trans h'.1
  | print => exact h.elim

theorem Declares.name_eq {s : Stmt} {x y : String} {value : Option Expr} (h : s.Declares x)
    (h' : s.Writes y value) : x = y := by
  cases s with
  | declaration => exact Eq.trans (Eq.symm h) h'.1
  | assignment => exact h.elim
  | print => exact h.elim

end Stmt

/-! ### Positions -/

section

variable (stmts : List Stmt)

def DeclaredBefore (i : Nat) (x : String) : Prop :=
  ∃ j < i, ∃ s, stmts[j]? = some s ∧ s.Declares x

/-- Statement `j` is the last one before `i` that declares `x` or assigns to it, and `value` is its
expression. -/
structure LastWrite (i : Nat) (x : String) (j : Nat) (value : Option Expr) : Prop where
  lt : j < i
  writes : ∃ s, stmts[j]? = some s ∧ s.Writes x value
  last : ∀ k, j < k → k < i → ∀ s, stmts[k]? = some s → ∀ v, ¬ s.Writes x v

/-- What the last write before `i` stored in `x` is initialized: a number, the result of an
operator, or a variable that was initialized at that write. -/
inductive InitializedAt : Nat → String → Prop
  | number {i j : Nat} {x text : String} (h : LastWrite stmts i x j (some (.number text))) :
      InitializedAt i x
  | binary {i j : Nat} {x : String} {op : BinOp} {left right : Expr}
      (h : LastWrite stmts i x j (some (.binary op left right))) : InitializedAt i x
  | copy {i j : Nat} {x y : String} (h : LastWrite stmts i x j (some (.identifier y)))
      (hy : InitializedAt j y) : InitializedAt i x

structure Admissible (i : Nat) (s : Stmt) : Prop where
  declares : ∀ x, s.Declares x → ¬ DeclaredBefore stmts i x
  uses : ∀ x, s.Uses x → DeclaredBefore stmts i x
  names : ∀ e ∈ s.expr?, ∀ x ∈ e.names, DeclaredBefore stmts i x
  operands : ∀ e ∈ s.expr?, ∀ x ∈ e.operandNames, InitializedAt stmts i x

end

section

variable {stmts : List Stmt} {i j : Nat} {x : String} {s : Stmt} {value value' : Option Expr}

theorem declaredBefore_succ (hs : stmts[i]? = some s) :
    DeclaredBefore stmts (i + 1) x ↔ DeclaredBefore stmts i x ∨ s.Declares x := by
  constructor
  · rintro ⟨j, hj, s', hs', hdecl⟩
    rcases Nat.lt_succ_iff_lt_or_eq.1 hj with hj | rfl
    · exact .inl ⟨j, hj, s', hs', hdecl⟩
    · rw [hs] at hs'
      cases hs'
      exact .inr hdecl
  · rintro (⟨j, hj, h⟩ | hdecl)
    · exact ⟨j, Nat.lt_succ_of_lt hj, h⟩
    · exact ⟨i, Nat.lt_succ_self i, s, hs, hdecl⟩

theorem LastWrite.of_writes (hs : stmts[i]? = some s) (hw : s.Writes x value) :
    LastWrite stmts (i + 1) x i value :=
  ⟨Nat.lt_succ_self i, ⟨s, hs, hw⟩, fun k hk hk' => by omega⟩

theorem LastWrite.eq_of_writes (hs : stmts[i]? = some s) (hw : s.Writes x value)
    (h : LastWrite stmts (i + 1) x j value') : j = i ∧ value' = value := by
  obtain ⟨hlt, ⟨s', hs', hw'⟩, hlast⟩ := h
  rcases Nat.lt_succ_iff_lt_or_eq.1 hlt with hj | rfl
  · exact absurd hw (hlast i hj (Nat.lt_succ_self i) s hs value)
  · rw [hs] at hs'
    cases hs'
    exact ⟨rfl, hw'.value_eq hw⟩

theorem lastWrite_succ_of_not_writes (hs : stmts[i]? = some s) (hw : ∀ v, ¬ s.Writes x v) :
    LastWrite stmts (i + 1) x j value ↔ LastWrite stmts i x j value := by
  constructor
  · rintro ⟨hlt, ⟨s', hs', hw'⟩, hlast⟩
    have hj : j ≠ i := by
      rintro rfl
      rw [hs] at hs'
      cases hs'
      exact hw _ hw'
    exact ⟨by omega, ⟨s', hs', hw'⟩, fun k hk hk' => hlast k hk (by omega)⟩
  · rintro ⟨hlt, hwrites, hlast⟩
    refine ⟨by omega, hwrites, fun k hk hk' s' hs' => ?_⟩
    rcases Nat.lt_succ_iff_lt_or_eq.1 hk' with hk' | rfl
    · exact hlast k hk hk' s' hs'
    · rw [hs] at hs'
      cases hs'
      exact hw

/-- A statement that writes `x` decides whether `x` is initialized behind it. -/
theorem initializedAt_succ_of_writes (hs : stmts[i]? = some s) (hw : s.Writes x value) :
    InitializedAt stmts (i + 1) x ↔
      ∃ e, value = some e ∧ ∀ y ∈ e.name?, InitializedAt stmts i y := by
  constructor
  · rintro (h | h | ⟨h, hy⟩)
    · exact ⟨_, (h.eq_of_writes hs hw).2.symm, by simp [Expr.name?]⟩
    · exact ⟨_, (h.eq_of_writes hs hw).2.symm, by simp [Expr.name?]⟩
    · obtain ⟨rfl, rfl⟩ := h.eq_of_writes hs hw
      exact ⟨_, rfl, by simpa [Expr.name?] using hy⟩
  · rintro ⟨e, rfl, he⟩
    cases e with
    | number text => exact .number (.of_writes hs hw)
    | identifier y => exact .copy (.of_writes hs hw) (he y rfl)
    | binary op left right => exact .binary (.of_writes hs hw)

theorem initializedAt_succ_of_not_writes (hs : stmts[i]? = some s) (hw : ∀ v, ¬ s.Writes x v) :
    InitializedAt stmts (i + 1) x ↔ InitializedAt stmts i x := by
  constructor
  · rintro (h | h | ⟨h, hy⟩)
    · exact .number ((lastWrite_succ_of_not_writes hs hw).1 h)
    · exact .binary ((lastWrite_succ_of_not_writes hs hw).1 h)
    · exact .copy ((lastWrite_succ_of_not_writes hs hw).1 h) hy
  · rintro (h | h | ⟨h, hy⟩)
    · exact .number ((lastWrite_succ_of_not_writes hs hw).2 h)
    · exact .binary ((lastWrite_succ_of_not_writes hs hw).2 h)
    · exact .copy ((lastWrite_succ_of_not_writes hs hw).2 h) hy

end

/-! ### Evaluation -/

namespace SymbolTable

variable {t : SymbolTable} {x : String}

def Initialized (t : SymbolTable) (x : String) : Prop :=
  ∃ v, t.valueOf x = some v ∧ v.isInitialized = true

theorem evaluate_identifier_eq_ok_iff {v : Value} :
    t.evaluate (.identifier x) = .ok v ↔ t.valueOf x = some v := by
  rw [evaluate, valueOf]
  cases t.get? x <;> simp

theorem combine_eq_ok_iff {op : BinOp} {left right : Expr} {l r v : Value} :
    Value.combine op left right l r = .ok v ↔ ∃ a b, l.text? = some a ∧ r.text? = some b ∧
      v = .composed (a ++ " " ++ op.symbol ++ " " ++ b) := by
  unfold Value.combine
  cases l.text? <;> cases r.text? <;> simp [eq_comm]

theorem evaluate_binary_eq_ok_iff {op : BinOp} {left right : Expr} {v : Value} :
    t.evaluate (.binary op left right) = .ok v ↔ ∃ l r, t.evaluate left = .ok l ∧
      t.evaluate right = .ok r ∧ Value.combine op left right l r = .ok v := by
  rw [evaluate]
  cases t.evaluate left with
  | error e => simp [bind, Except.bind]
  | ok l => cases t.evaluate right <;> simp [bind, Except.bind]

/-- Only a variable that is copied as a whole can give a value that is not initialized. -/
theorem isInitialized_of_evaluate {e : Expr} {v : Value} (h : t.evaluate e = .ok v) :
    v.isInitialized = true ↔ ∀ y ∈ e.name?, t.Initialized y := by
  cases e with
  | number text =>
    cases h
    simp [Expr.name?, Value.isInitialized, Value.text?]
  | identifier y =>
    rw [evaluate_identifier_eq_ok_iff] at h
    simp [Expr.name?, Initialized, h]
  | binary op left right =>
    obtain ⟨l, r, -, -, h⟩ := evaluate_binary_eq_ok_iff.1 h
    obtain ⟨a, b, -, -, rfl⟩ := combine_eq_ok_iff.1 h
    simp [Expr.name?, Value.isInitialized, Value.text?]

/-- A value without a text is that of a variable. -/
theorem exists_name_of_evaluate {e : Expr} {v : Value} (h : t.evaluate e = .ok v)
    (hv : v.text? = none) : ∃ x, e = .identifier x := by
  cases e with
  | number text => cases h; cases hv
  | identifier x => exact ⟨x, rfl⟩
  | binary op left right =>
    obtain ⟨l, r, -, -, h⟩ := evaluate_binary_eq_ok_iff.1 h
    obtain ⟨a, b, -, -, rfl⟩ := combine_eq_ok_iff.1 h
    cases hv

theorem exists_evaluate_iff {e : Expr} :
    (∃ v, t.evaluate e = .ok v) ↔
      (∀ y ∈ e.names, t.isDefined y = true) ∧ ∀ y ∈ e.operandNames, t.Initialized y := by
  induction e with
  | number text => simp [evaluate, Expr.names, Expr.operandNames]
  | identifier y =>
    simp only [evaluate_identifier_eq_ok_iff, ← Option.isSome_iff_exists, isSome_valueOf]
    simp [Expr.names, Expr.operandNames]
  | binary op left right ihl ihr =>
    constructor
    · rintro ⟨v, h⟩
      obtain ⟨l, r, hl, hr, h⟩ := evaluate_binary_eq_ok_iff.1 h
      obtain ⟨a, b, ha, hb, -⟩ := combine_eq_ok_iff.1 h
      have hl' := (isInitialized_of_evaluate hl).1 (by simp [Value.isInitialized, ha])
      have hr' := (isInitialized_of_evaluate hr).1 (by simp [Value.isInitialized, hb])
      have ihl' := ihl.1 ⟨l, hl⟩
      have ihr' := ihr.1 ⟨r, hr⟩
      constructor
      · intro y hy
        rcases List.mem_append.1 hy with hy | hy
        · exact ihl'.1 y hy
        · exact ihr'.1 y hy
      · intro y hy
        simp only [Expr.operandNames, List.mem_append, Option.mem_toList] at hy
        rcases hy with (hy | hy) | hy | hy
        · exact hl' y hy
        · exact hr' y hy
        · exact ihl'.2 y hy
        · exact ihr'.2 y hy
    · rintro ⟨hnames, hoperands⟩
      simp only [Expr.operandNames, List.mem_append, Option.mem_toList] at hoperands
      simp only [Expr.names, List.mem_append] at hnames
      obtain ⟨l, hl⟩ := ihl.2 ⟨fun y hy => hnames y (.inl hy),
        fun y hy => hoperands y (.inr (.inl hy))⟩
      obtain ⟨r, hr⟩ := ihr.2 ⟨fun y hy => hnames y (.inr hy),
        fun y hy => hoperands y (.inr (.inr hy))⟩
      -- an operand that is no name is initialized by itself
      have hl' := (isInitialized_of_evaluate hl).2 fun y hy => hoperands y (.inl (.inl hy))
      have hr' := (isInitialized_of_evaluate hr).2 fun y hy => hoperands y (.inl (.inr hy))
      obtain ⟨a, ha⟩ := Option.isSome_iff_exists.1 hl'
      obtain ⟨b, hb⟩ := Option.isSome_iff_exists.1 hr'
      refine ⟨.composed (a ++ " " ++ op.symbol ++ " " ++ b), ?_⟩
      refine evaluate_binary_eq_ok_iff.2 ⟨l, r, hl, hr, ?_⟩
      exact combine_eq_ok_iff.2 ⟨a, b, ha, hb, rfl⟩

end SymbolTable

/-! ### The table reflects the statements before it -/

/-- After `i` statements, the table defines what they declare, and holds a text for what they
initialize. -/
structure Reflects (stmts : List Stmt) (i : Nat) (t : SymbolTable) : Prop where
  declared : ∀ x, t.isDefined x = true ↔ DeclaredBefore stmts i x
  initialized : ∀ x, t.Initialized x ↔ InitializedAt stmts i x

section

variable {stmts : List Stmt} {i : Nat} {t : SymbolTable} {s : Stmt} {effect : Effect}

theorem reflects_empty (stmts : List Stmt) : Reflects stmts 0 .empty := by
  refine ⟨fun x => ?_, fun x => ?_⟩
  · simp [SymbolTable.isDefined, SymbolTable.empty, DeclaredBefore]
  · constructor
    · rintro ⟨v, hv, -⟩
      simp at hv
    · rintro (h | h | ⟨h, -⟩) <;> exact absurd h.lt (Nat.not_lt_zero _)

theorem Reflects.isInitialized_iff (h : Reflects stmts i t) {e : Expr} {v : Value}
    (he : t.evaluate e = .ok v) :
    v.isInitialized = true ↔ ∀ y ∈ e.name?, InitializedAt stmts i y := by
  rw [SymbolTable.isInitialized_of_evaluate he]
  simp only [h.initialized]

theorem Reflects.exists_evaluate_iff (h : Reflects stmts i t) {e : Expr} :
    (∃ v, t.evaluate e = .ok v) ↔
      (∀ y ∈ e.names, DeclaredBefore stmts i y) ∧
        ∀ y ∈ e.operandNames, InitializedAt stmts i y := by
  rw [SymbolTable.exists_evaluate_iff]
  simp only [h.initialized, h.declared]

theorem Reflects.exists_passes_iff (h : Reflects stmts i t) :
    (∃ effect, t.Passes s effect) ↔ Admissible stmts i s := by
  constructor
  · rintro ⟨effect, hs⟩
    cases hs with
    | @declaration ty name hdef =>
      refine ⟨?_, nofun, nofun, nofun⟩
      rintro x rfl
      rw [← h.declared, hdef]
      exact Bool.false_ne_true
    | @initialized ty name e v hdef he =>
      obtain ⟨hnames, hoperands⟩ := h.exists_evaluate_iff.1 ⟨v, he⟩
      refine ⟨?_, nofun, ?_, ?_⟩
      · rintro x rfl
        rw [← h.declared, hdef]
        exact Bool.false_ne_true
      · rintro e ⟨⟩; exact hnames
      · rintro e ⟨⟩; exact hoperands
    | @assignment name e v hdef he =>
      obtain ⟨hnames, hoperands⟩ := h.exists_evaluate_iff.1 ⟨v, he⟩
      refine ⟨nofun, ?_, ?_, ?_⟩
      · rintro x rfl; exact (h.declared name).1 hdef
      · rintro e ⟨⟩; exact hnames
      · rintro e ⟨⟩; exact hoperands
    | @print name hdef =>
      refine ⟨nofun, ?_, nofun, nofun⟩
      rintro x rfl; exact (h.declared name).1 hdef
  · rintro ⟨hdeclares, huses, hnames, hoperands⟩
    cases s with
    | declaration ty name init =>
      have hdef : t.isDefined name = false := by
        rw [Bool.eq_false_iff, Ne, h.declared]
        exact hdeclares name rfl
      cases init with
      | none => exact ⟨_, .declaration hdef⟩
      | some e =>
        obtain ⟨v, he⟩ := h.exists_evaluate_iff.2 ⟨hnames e rfl, hoperands e rfl⟩
        exact ⟨_, .initialized hdef he⟩
    | assignment name e =>
      obtain ⟨v, he⟩ := h.exists_evaluate_iff.2 ⟨hnames e rfl, hoperands e rfl⟩
      exact ⟨_, .assignment ((h.declared name).2 (huses name rfl)) he⟩
    | print name => exact ⟨_, .print ((h.declared name).2 (huses name rfl))⟩

/-- One write: the table changes at `name` only, and there as statement `i` says. -/
theorem Reflects.write {t' : SymbolTable} {name : String} {value : Option Expr} {v : Value}
    (h : Reflects stmts i t) (hs : stmts[i]? = some s) (hw : s.Writes name value)
    (hdecl : DeclaredBefore stmts i name ∨ s.Declares name)
    (hval : ∀ x, t'.valueOf x = if x = name then some v else t.valueOf x)
    (hinit : v.isInitialized = true ↔
      ∃ e, value = some e ∧ ∀ y ∈ e.name?, InitializedAt stmts i y) :
    Reflects stmts (i + 1) t' := by
  refine ⟨fun x => ?_, fun x => ?_⟩
  · rw [declaredBefore_succ hs, ← t'.isSome_valueOf, hval]
    split
    · next hx => exact hx ▸ ⟨fun _ => hdecl, fun _ => rfl⟩
    · next hx =>
      rw [t.isSome_valueOf, h.declared]
      exact ⟨.inl, fun hx' => hx'.resolve_right fun hd => hx (hd.name_eq hw)⟩
  · rw [SymbolTable.Initialized, hval]
    split
    · next hx =>
      rw [hx, initializedAt_succ_of_writes hs hw, ← hinit]
      simp
    · next hx =>
      rw [initializedAt_succ_of_not_writes hs fun v hw' => hx (hw'.name_eq hw)]
      exact h.initialized x

theorem Reflects.step (h : Reflects stmts i t) (hs : stmts[i]? = some s)
    (hpass : t.Passes s effect) : Reflects stmts (i + 1) (effect.apply t) := by
  cases hpass with
  | @declaration ty name hdef =>
    refine h.write hs ⟨rfl, rfl⟩ (.inr rfl) (fun x => SymbolTable.valueOf_apply_declare hdef) ?_
    simp [Value.isInitialized, Value.text?]
  | @initialized ty name e v hdef he =>
    refine h.write hs ⟨rfl, rfl⟩ (.inr rfl) (fun x => SymbolTable.valueOf_apply_declare hdef) ?_
    simp [h.isInitialized_iff he]
  | @assignment name e v hdef he =>
    have hdecl : DeclaredBefore stmts i name := (h.declared name).1 hdef
    refine h.write hs ⟨rfl, rfl⟩ (.inl hdecl) (fun x => SymbolTable.valueOf_apply_assign hdef) ?_
    simp [h.isInitialized_iff he]
  | @print name hdef =>
    refine ⟨fun x => ?_, fun x => ?_⟩
    · rw [Effect.apply, declaredBefore_succ hs, h.declared]
      simp [Stmt.Declares]
    · rw [Effect.apply, initializedAt_succ_of_not_writes hs (fun v hw => hw.elim)]
      exact h.initialized x

/-- The statements from `i` on pass exactly if each is admissible where it stands. -/
theorem Reflects.fault_eq_none_iff (h : Reflects stmts i t) {rest : List Stmt}
    (hrest : stmts.drop i = rest) :
    (t.analyze rest).fault = none ↔
      ∀ k s, i ≤ k → stmts[k]? = some s → Admissible stmts k s := by
  induction rest generalizing i t with
  | nil =>
    refine ⟨fun _ k s hk hs => ?_, fun _ => rfl⟩
    have hlen := List.drop_eq_nil_iff.1 hrest
    rw [List.getElem?_eq_none (by omega)] at hs
    cases hs
  | cons s rest ih =>
    have hs : stmts[i]? = some s := by
      rw [← List.head?_drop, hrest, List.head?_cons]
    have hrest' : stmts.drop (i + 1) = rest := by
      rw [← List.tail_drop, hrest, List.tail_cons]
    rw [SymbolTable.fault_analyze_cons_eq_none_iff]
    constructor
    · rintro ⟨effect, hpass, hfault⟩ k s' hk hs'
      rcases Nat.eq_or_lt_of_le hk with rfl | hk
      · rw [hs] at hs'
        cases hs'
        exact h.exists_passes_iff.1 ⟨effect, hpass⟩
      · exact (ih (h.step hs hpass) hrest').1 hfault k s' hk hs'
    · intro hall
      obtain ⟨effect, hpass⟩ := h.exists_passes_iff.2 (hall i s (Nat.le_refl i) hs)
      exact ⟨effect, hpass, (ih (h.step hs hpass) hrest').2 fun k s' hk => hall k s' (by omega)⟩

end

/-! ### The variables of a program that passes -/

/-- The names that a statement writes or reads. -/
def Stmt.names (s : Stmt) : List String :=
  s.expr?.elim [] Expr.names ++
    match s with
    | declaration _ name _ | assignment name _ | print name => [name]

theorem SymbolTable.Passes.isDefined_apply_iff {t : SymbolTable} {s : Stmt} {effect : Effect}
    {x : String} (h : t.Passes s effect) :
    (effect.apply t).isDefined x = true ↔ t.isDefined x = true ∨ s.Declares x := by
  rw [← isSome_valueOf, ← isSome_valueOf]
  cases h with
  | declaration hdef | initialized hdef _ =>
    rw [valueOf_apply_declare hdef]
    split
    · next hx => simp [Stmt.Declares, hx]
    · next hx => simp [Stmt.Declares, Ne.symm hx]
  | assignment hdef _ =>
    rw [valueOf_apply_assign hdef]
    split
    · next hx => simp [hx, isSome_valueOf, hdef]
    · simp [Stmt.Declares]
  | print hdef => simp [Effect.apply, Stmt.Declares]

theorem SymbolTable.isDefined_analyze_iff {t : SymbolTable} {stmts : List Stmt} {x : String}
    (h : (t.analyze stmts).fault = none) :
    (t.analyze stmts).table.isDefined x = true ↔
      t.isDefined x = true ∨ ∃ s ∈ stmts, s.Declares x := by
  induction stmts generalizing t with
  | nil => simp [SymbolTable.analyze]
  | cons s stmts ih =>
    obtain ⟨effect, hs, hrest⟩ := fault_analyze_cons_eq_none_iff.1 h
    rw [table_analyze_cons hs, ih hrest, hs.isDefined_apply_iff]
    simp [or_assoc]

/-- The variables of the table are those that the program declares. -/
theorem mem_analyze_iff {stmts : List Stmt} {x : String}
    (h : (SymbolTable.empty.analyze stmts).fault = none) :
    x ∈ (SymbolTable.empty.analyze stmts).table.toList.map Entry.name ↔
      ∃ s ∈ stmts, s.Declares x := by
  have hempty : ¬ SymbolTable.empty.isDefined x = true := by
    simp [SymbolTable.isDefined, SymbolTable.empty]
  rw [← SymbolTable.isDefined_iff_mem, SymbolTable.isDefined_analyze_iff h]
  exact or_iff_right hempty

/-- Every name in a program that passes is declared. -/
theorem mem_analyze_of_mem_names {stmts : List Stmt}
    (h : (SymbolTable.empty.analyze stmts).fault = none) {s : Stmt} (hs : s ∈ stmts) {x : String}
    (hx : x ∈ s.names) :
    x ∈ (SymbolTable.empty.analyze stmts).table.toList.map Entry.name := by
  rw [mem_analyze_iff h]
  obtain ⟨i, hi⟩ := List.mem_iff_getElem?.1 hs
  have hadm := ((reflects_empty stmts).fault_eq_none_iff List.drop_zero).1 h i s (Nat.zero_le i) hi
  have hbefore : DeclaredBefore stmts i x → ∃ s ∈ stmts, s.Declares x := by
    rintro ⟨j, -, s', hs', hdecl⟩
    exact ⟨s', List.mem_of_getElem? hs', hdecl⟩
  rcases List.mem_append.1 hx with hx | hx
  · cases he : s.expr? with
    | none => simp [he] at hx
    | some e => exact hbefore (hadm.names e he x (by simpa [he] using hx))
  · cases s with
    | declaration ty name init => exact ⟨_, hs, (List.mem_singleton.1 hx).symm⟩
    | assignment name value => exact hbefore (hadm.uses x (List.mem_singleton.1 hx).symm)
    | print name => exact hbefore (hadm.uses x (List.mem_singleton.1 hx).symm)

/-- Analysis from the empty table passes a program exactly if each of its statements is admissible
at its position. -/
theorem fault_eq_none_iff_admissible (p : Program) :
    (SymbolTable.empty.analyze p.stmts).fault = none ↔
      ∀ i s, p.stmts[i]? = some s → Admissible p.stmts i s := by
  rw [(reflects_empty p.stmts).fault_eq_none_iff List.drop_zero]
  exact ⟨fun h i s => h i s (Nat.zero_le i), fun h i s _ => h i s⟩

end ThreeAddress
