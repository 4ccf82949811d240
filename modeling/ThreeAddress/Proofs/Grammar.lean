import ThreeAddress.Program.Cursor

/-!
# The grammar of programs

The grammar as derivations: `DerivesExpr ts e` says that the tokens `ts` are an expression whose
tree is `e`, and so on up to programs. Factors are grouped into terms by `*` and `/`, terms into
expressions by `+` and `-`, both to the left.

Every reader of a part of a program succeeds exactly on the tokens that derive that part, with the
tokens behind it left over (`readExpression_eq_ok_iff`, and `derivesStmt_of_readStatement` with
`readStatement_of_derivesStmt`), so parsing accepts exactly the derivable lists of tokens and gives
the one tree that each of them derives (`parse_eq_ok_iff`).
-/

namespace ThreeAddress

/-! ### Derivations -/

inductive DerivesFactor : Token → Expr → Prop
  | number {t : Token} (ht : t.kind = .number) : DerivesFactor t (.number t.text)
  | floatNumber {t : Token} (ht : t.kind = .floatNumber) : DerivesFactor t (.number t.text)
  | identifier {t : Token} (ht : t.kind = .identifier) : DerivesFactor t (.identifier t.text)

/-- Factors joined by `*` and `/`. -/
inductive DerivesTerm : List Token → Expr → Prop
  | factor {t : Token} {e : Expr} (h : DerivesFactor t e) : DerivesTerm [t] e
  | link {ts : List Token} {t u : Token} {op : BinOp} {left right : Expr}
      (hleft : DerivesTerm ts left) (ht : t.is .operator op.symbol) (hop : op = .mul ∨ op = .div)
      (hright : DerivesFactor u right) : DerivesTerm (ts ++ [t, u]) (.binary op left right)

/-- Terms joined by `+` and `-`. -/
inductive DerivesExpr : List Token → Expr → Prop
  | term {ts : List Token} {e : Expr} (h : DerivesTerm ts e) : DerivesExpr ts e
  | link {ts us : List Token} {t : Token} {op : BinOp} {left right : Expr}
      (hleft : DerivesExpr ts left) (ht : t.is .operator op.symbol) (hop : op = .add ∨ op = .sub)
      (hright : DerivesTerm us right) : DerivesExpr (ts ++ t :: us) (.binary op left right)

/-- An assignment sign with an expression behind it, or nothing. -/
inductive DerivesInit : List Token → Option Expr → Prop
  | absent : DerivesInit [] none
  | present {a : Token} {ts : List Token} {e : Expr} (ha : a.kind = .assignment)
      (he : DerivesExpr ts e) : DerivesInit (a :: ts) (some e)

/-- Statements. Only the keywords of types have a fixed text: any other opens a print statement,
and an assignment sign may have any text. -/
inductive DerivesStmt : List Token → Stmt → Prop
  | declaration {t x s : Token} {ty : Ty} {ts : List Token} {init : Option Expr}
      (ht : t.is .keyword ty.keyword) (hx : x.kind = .identifier) (hinit : DerivesInit ts init)
      (hs : s.is .separator ";") :
      DerivesStmt (t :: x :: (ts ++ [s])) (.declaration ty x.text init)
  | assignment {x a s : Token} {ts : List Token} {e : Expr}
      (hx : x.kind = .identifier) (ha : a.kind = .assignment)
      (he : DerivesExpr ts e) (hs : s.is .separator ";") :
      DerivesStmt (x :: a :: (ts ++ [s])) (.assignment x.text e)
  | print {t x s : Token} (ht : t.kind = .keyword) (hint : t.text ≠ "int")
      (hfloat : t.text ≠ "float") (hx : x.kind = .identifier) (hs : s.is .separator ";") :
      DerivesStmt [t, x, s] (.print x.text)

inductive DerivesStmts : List Token → List Stmt → Prop
  | nil : DerivesStmts [] []
  | cons {ts us : List Token} {s : Stmt} {rest : List Stmt} (h : DerivesStmt ts s)
      (hrest : DerivesStmts us rest) : DerivesStmts (ts ++ us) (s :: rest)

def DerivesProgram (ts : List Token) (p : Program) : Prop :=
  DerivesStmts ts p.stmts

/-! ### Keywords, operands and operators -/

theorem Ty.ofKeyword?_eq_none_iff {s : String} :
    Ty.ofKeyword? s = none ↔ s ≠ "int" ∧ s ≠ "float" := by
  unfold Ty.ofKeyword?
  split
  · next h => simp [h]
  · next h => simp [h]

theorem operand?_eq_some_iff {t : Token} {e : Expr} :
    t.operand? = some e ↔ DerivesFactor t e := by
  constructor
  · intro h
    unfold Token.operand? at h
    split at h
    · next hk => cases h; exact .number hk
    · next hk => cases h; exact .floatNumber hk
    · next hk => cases h; exact .identifier hk
    · cases h
  · rintro (hk | hk | hk) <;> simp [Token.operand?, hk]

theorem operator?_eq_some_iff {t : Token} {op : BinOp} :
    t.operator? = some op ↔ t.is .operator op.symbol := by
  rw [Token.is_eq_true_iff]
  unfold Token.operator?
  split
  · next hk => simp [hk, BinOp.ofSymbol?_eq_some_iff]
  · next hk =>
    constructor
    · rintro ⟨⟩
    · rintro ⟨hop, -⟩; exact absurd hop hk

/-- No operator stands in front of `ts`, so an expression can end there. -/
def EndsExpr (ts : List Token) : Prop :=
  ∀ t ∈ ts.head?, t.operator? = none

theorem EndsExpr.of_kind {t : Token} {ts : List Token} (h : t.kind ≠ .operator) :
    EndsExpr (t :: ts) := by
  intro u hu
  obtain rfl : t = u := by simpa using hu
  unfold Token.operator?
  split
  · next hk => exact absurd hk h
  · rfl

/-! ### Chains

A reader takes an expression as a chain, an operand with links behind it, and `assemble` builds the
tree; a derivation nests terms in expressions. The two agree. -/

/-- Operators, each with the operand behind it. -/
inductive DerivesLinks : List Token → List (BinOp × Expr) → Prop
  | nil : DerivesLinks [] []
  | cons {t u : Token} {op : BinOp} {right : Expr} {ts : List Token} {links : List (BinOp × Expr)}
      (ht : t.is .operator op.symbol) (hu : DerivesFactor u right) (h : DerivesLinks ts links) :
      DerivesLinks (t :: u :: ts) ((op, right) :: links)

theorem DerivesLinks.append {ts us : List Token} {links more : List (BinOp × Expr)}
    (h₁ : DerivesLinks ts links) (h₂ : DerivesLinks us more) :
    DerivesLinks (ts ++ us) (links ++ more) := by
  induction h₁ with
  | nil => exact h₂
  | cons ht hu _ ih => exact .cons ht hu ih

theorem isMultiplicative_iff {op : BinOp} :
    op.isMultiplicative = true ↔ op = .mul ∨ op = .div := by
  cases op <;> decide

theorem isMultiplicative_eq_false_iff {op : BinOp} :
    op.isMultiplicative = false ↔ op = .add ∨ op = .sub := by
  cases op <;> decide

/-- The product of a chain without `+` and `-`. -/
def chainProduct (product : Expr) (links : List (BinOp × Expr)) : Expr :=
  links.foldl (fun left link => .binary link.1 left link.2) product

theorem assemble_append_of_mul {links : List (BinOp × Expr)}
    (hlinks : ∀ l ∈ links, l.1.isMultiplicative = true) (sum : Expr → Expr) (product : Expr)
    (more : List (BinOp × Expr)) :
    assemble sum product (links ++ more) = assemble sum (chainProduct product links) more := by
  induction links generalizing product with
  | nil => rfl
  | cons l links ih =>
    have hl : l.1.isMultiplicative = true := hlinks l (by simp)
    rw [List.cons_append, assemble, if_pos hl]
    exact ih (fun l' h => hlinks l' (by simp [h])) _

theorem assemble_of_mul {links : List (BinOp × Expr)}
    (hlinks : ∀ l ∈ links, l.1.isMultiplicative = true) (sum : Expr → Expr) (product : Expr) :
    assemble sum product links = sum (chainProduct product links) := by
  simpa [assemble] using assemble_append_of_mul hlinks sum product []

/-- Behind a chain, `+` and `-` close all that stands before them. -/
theorem assemble_append_of_add {op : BinOp} (hop : op.isMultiplicative = false)
    (links : List (BinOp × Expr)) (sum : Expr → Expr) (product right : Expr)
    (more : List (BinOp × Expr)) :
    assemble sum product (links ++ (op, right) :: more) =
      assemble (.binary op (assemble sum product links)) right more := by
  induction links generalizing sum product with
  | nil => simp [assemble, hop]
  | cons l links ih =>
    rw [List.cons_append, assemble, assemble]
    split
    · exact ih _ _
    · exact ih _ _

theorem DerivesTerm.chain {ts : List Token} {e : Expr} (h : DerivesTerm ts e) :
    ∃ t us first links, ts = t :: us ∧ DerivesFactor t first ∧ DerivesLinks us links ∧
      (∀ l ∈ links, l.1.isMultiplicative = true) ∧ chainProduct first links = e := by
  induction h with
  | factor h => exact ⟨_, [], _, [], rfl, h, .nil, by simp, rfl⟩
  | @link ts t u op left right _ ht hop hu ih =>
    obtain ⟨t', us, first, links, rfl, hfirst, hlinks, hmul, rfl⟩ := ih
    refine ⟨t', us ++ [t, u], first, links ++ [(op, right)], rfl, hfirst,
      hlinks.append (.cons ht hu .nil), ?_, ?_⟩
    · intro l hl
      rcases List.mem_append.1 hl with hl | hl
      · exact hmul l hl
      · rw [List.mem_singleton.1 hl]
        exact isMultiplicative_iff.2 hop
    · rw [chainProduct, List.foldl_append]
      rfl

theorem DerivesExpr.chain {ts : List Token} {e : Expr} (h : DerivesExpr ts e) :
    ∃ t us first links, ts = t :: us ∧ DerivesFactor t first ∧ DerivesLinks us links ∧
      assemble id first links = e := by
  induction h with
  | term h =>
    obtain ⟨t, us, first, links, rfl, hfirst, hlinks, hmul, rfl⟩ := h.chain
    exact ⟨t, us, first, links, rfl, hfirst, hlinks, assemble_of_mul hmul id first⟩
  | @link ts us t op left right _ ht hop hright ih =>
    obtain ⟨t₁, us₁, first₁, links₁, rfl, hfirst₁, hlinks₁, rfl⟩ := ih
    obtain ⟨t₂, us₂, first₂, links₂, rfl, hfirst₂, hlinks₂, hmul, rfl⟩ := hright.chain
    refine ⟨t₁, us₁ ++ t :: t₂ :: us₂, first₁, links₁ ++ (op, first₂) :: links₂, rfl, hfirst₁,
      hlinks₁.append (.cons ht hfirst₂ hlinks₂), ?_⟩
    rw [assemble_append_of_add (isMultiplicative_eq_false_iff.2 hop), assemble_of_mul hmul]

/-- The tree that `assemble` builds is derived, whatever sum `pre` the chain stands in. -/
theorem derivesExpr_assemble {us : List Token} {links : List (BinOp × Expr)}
    (h : DerivesLinks us links) {pre ts : List Token} {sum : Expr → Expr} {product : Expr}
    (hsum : ∀ us e, DerivesTerm us e → DerivesExpr (pre ++ us) (sum e))
    (hproduct : DerivesTerm ts product) :
    DerivesExpr (pre ++ (ts ++ us)) (assemble sum product links) := by
  induction h generalizing pre ts sum product with
  | nil => simpa [assemble] using hsum ts product hproduct
  | @cons t u op right us links ht hu _ ih =>
    rw [assemble]
    split
    · next hop =>
      have hproduct' := hproduct.link ht (isMultiplicative_iff.1 hop) hu
      simpa using ih hsum hproduct'
    · next hop =>
      have hop' := isMultiplicative_eq_false_iff.1 (Bool.eq_false_iff.2 hop)
      -- the product read so far is complete, and the sum is what a further term is added to
      have hsum' : ∀ us e, DerivesTerm us e →
          DerivesExpr ((pre ++ ts ++ [t]) ++ us) (.binary op (sum product) e) := by
        intro us e he
        simpa using (hsum ts product hproduct).link ht hop' he
      simpa using ih hsum' (.factor hu)

theorem derivesExpr_iff {ts : List Token} {e : Expr} :
    DerivesExpr ts e ↔ ∃ t us first links, ts = t :: us ∧ DerivesFactor t first ∧
      DerivesLinks us links ∧ assemble id first links = e := by
  constructor
  · exact DerivesExpr.chain
  · rintro ⟨t, us, first, links, rfl, hfirst, hlinks, rfl⟩
    have hsum : ∀ us e, DerivesTerm us e → DerivesExpr ([] ++ us) (id e) := fun _ _ h => .term h
    exact derivesExpr_assemble hlinks hsum (.factor hfirst)

/-! ### Readers -/

theorem readLinks_of_derivesLinks {us rest : List Token} {links : List (BinOp × Expr)}
    (h : DerivesLinks us links) (hrest : EndsExpr rest) :
    readLinks (us ++ rest) = .ok (links, rest) := by
  induction h with
  | nil =>
    cases rest with
    | nil => rfl
    | cons t rest =>
      have ht : t.operator? = none := hrest t rfl
      simp [readLinks, ht]
  | @cons t u op right us links ht hu _ ih =>
    rw [← operator?_eq_some_iff] at ht
    rw [← operand?_eq_some_iff] at hu
    simp [readLinks, ht, hu, ih]

theorem derivesLinks_of_readLinks {ts rest : List Token} {links : List (BinOp × Expr)}
    (h : readLinks ts = .ok (links, rest)) :
    ∃ us, ts = us ++ rest ∧ DerivesLinks us links ∧ EndsExpr rest := by
  fun_induction readLinks ts generalizing links rest with
  | case1 =>
    cases h
    exact ⟨[], rfl, .nil, by simp [EndsExpr]⟩
  | case2 t ts ht =>
    cases h
    exact ⟨[], rfl, .nil, by simpa [EndsExpr] using ht⟩
  | case3 | case4 => cases h
  | case5 t op ht u tail right hu ih =>
    obtain ⟨_, _, hlinks, ⟨⟩⟩ := Reading.andThen_eq_ok_iff.1 h
    obtain ⟨us, rfl, hus, hrest⟩ := ih hlinks
    exact ⟨t :: u :: us, rfl,
      .cons (operator?_eq_some_iff.1 ht) (operand?_eq_some_iff.1 hu) hus, hrest⟩

theorem readExpression_eq_ok_iff {ts rest : List Token} {e : Expr} :
    readExpression ts = .ok (e, rest) ↔
      ∃ us, ts = us ++ rest ∧ DerivesExpr us e ∧ EndsExpr rest := by
  constructor
  · intro h
    unfold readExpression at h
    split at h
    · cases h
    · next t ts =>
      split at h
      · cases h
      · next first hfirst =>
        obtain ⟨links, _, hlinks, ⟨⟩⟩ := Reading.andThen_eq_ok_iff.1 h
        obtain ⟨us, rfl, hus, hrest⟩ := derivesLinks_of_readLinks hlinks
        exact ⟨t :: us, rfl,
          derivesExpr_iff.2 ⟨t, us, first, links, rfl, operand?_eq_some_iff.1 hfirst, hus, rfl⟩,
          hrest⟩
  · rintro ⟨_, rfl, he, hrest⟩
    obtain ⟨t, us, first, links, rfl, hfirst, hlinks, rfl⟩ := he.chain
    rw [← operand?_eq_some_iff] at hfirst
    simp [readExpression, hfirst, readLinks_of_derivesLinks hlinks hrest]

theorem readName_cons {x : Token} (hx : x.kind = .identifier) (expected : Expected)
    (rest : List Token) : readName expected (x :: rest) = .ok (x.text, rest) := by
  simp [readName, hx]

theorem readName_eq_ok_iff {expected : Expected} {ts rest : List Token} {name : String} :
    readName expected ts = .ok (name, rest) ↔
      ∃ x : Token, ts = x :: rest ∧ x.kind = .identifier ∧ x.text = name := by
  constructor
  · intro h
    unfold readName at h
    split at h
    · cases h
    next x ts =>
    split at h
    · next hx => cases h; exact ⟨x, rfl, hx, rfl⟩
    · cases h
  · rintro ⟨x, rfl, hx, rfl⟩
    exact readName_cons hx expected rest

theorem readSemicolon_cons {s : Token} (hs : s.is .separator ";") (expected : Expected)
    (rest : List Token) : readSemicolon expected (s :: rest) = .ok ((), rest) := by
  rw [readSemicolon, if_pos hs]

theorem readSemicolon_eq_ok_iff {expected : Expected} {ts rest : List Token} {u : Unit} :
    readSemicolon expected ts = .ok (u, rest) ↔
      ∃ s : Token, ts = s :: rest ∧ s.is .separator ";" := by
  constructor
  · intro h
    unfold readSemicolon at h
    split at h
    · cases h
    next s ts =>
    split at h
    · next hs => cases h; exact ⟨s, rfl, hs⟩
    · cases h
  · rintro ⟨s, rfl, hs⟩
    exact readSemicolon_cons hs expected rest

theorem Token.kind_of_is {t : Token} {kind : Token.Kind} {text : String} (h : t.is kind text) :
    t.kind = kind :=
  (Token.is_eq_true_iff.1 h).1

theorem EndsExpr.of_semicolon {s : Token} (hs : s.is .separator ";") (ts : List Token) :
    EndsExpr (s :: ts) :=
  .of_kind (by rw [Token.kind_of_is hs]; decide)

theorem derivesInit_of_readInitializer {ts rest : List Token} {init : Option Expr}
    (h : readInitializer ts = .ok (init, rest)) :
    ∃ us, ts = us ++ rest ∧ DerivesInit us init := by
  unfold readInitializer at h
  split at h
  · cases h; exact ⟨[], rfl, .absent⟩
  · next a ts =>
    split at h
    · next ha =>
      obtain ⟨e, _, he, ⟨⟩⟩ := Reading.andThen_eq_ok_iff.1 h
      obtain ⟨us, rfl, hus, -⟩ := readExpression_eq_ok_iff.1 he
      exact ⟨a :: us, rfl, .present ha hus⟩
    · cases h; exact ⟨[], rfl, .absent⟩

theorem readInitializer_of_derivesInit {us : List Token} {init : Option Expr}
    (h : DerivesInit us init) {s : Token} (hs : s.is .separator ";") (rest : List Token) :
    readInitializer (us ++ s :: rest) = .ok (init, s :: rest) := by
  cases h with
  | absent => simp [readInitializer, Token.kind_of_is hs]
  | @present a us e ha he =>
    have := readExpression_eq_ok_iff.2 ⟨us, rfl, he, .of_semicolon hs rest⟩
    simp [readInitializer, ha, this]

/-! ### Statements and programs -/

theorem derivesStmt_of_readStatement {ts rest : List Token} {s : Stmt}
    (h : readStatement ts = .ok (s, rest)) : ∃ us, ts = us ++ rest ∧ DerivesStmt us s := by
  unfold readStatement at h
  split at h
  · cases h
  next t ts =>
  split at h
  · next hk =>
    split at h
    · next ty hty =>
      obtain ⟨name, ts₁, hname, h⟩ := Reading.andThen_eq_ok_iff.1 h
      obtain ⟨init, ts₂, hinit, h⟩ := Reading.andThen_eq_ok_iff.1 h
      obtain ⟨_, _, hend, ⟨⟩⟩ := Reading.andThen_eq_ok_iff.1 h
      obtain ⟨x, rfl, hx, rfl⟩ := readName_eq_ok_iff.1 hname
      obtain ⟨us, rfl, hus⟩ := derivesInit_of_readInitializer hinit
      obtain ⟨s, rfl, hs⟩ := readSemicolon_eq_ok_iff.1 hend
      have ht : t.is .keyword ty.keyword :=
        Token.is_eq_true_iff.2 ⟨hk, Ty.ofKeyword?_eq_some_iff.1 hty⟩
      exact ⟨t :: x :: (us ++ [s]), by simp, .declaration ht hx hus hs⟩
    · next hty =>
      obtain ⟨name, ts₁, hname, h⟩ := Reading.andThen_eq_ok_iff.1 h
      obtain ⟨_, _, hend, ⟨⟩⟩ := Reading.andThen_eq_ok_iff.1 h
      obtain ⟨x, rfl, hx, rfl⟩ := readName_eq_ok_iff.1 hname
      obtain ⟨s, rfl, hs⟩ := readSemicolon_eq_ok_iff.1 hend
      obtain ⟨hint, hfloat⟩ := Ty.ofKeyword?_eq_none_iff.1 hty
      exact ⟨[t, x, s], rfl, .print hk hint hfloat hx hs⟩
  · next hk =>
    split at h
    · cases h
    next a ts =>
    split at h
    · next ha =>
      obtain ⟨e, ts₁, he, h⟩ := Reading.andThen_eq_ok_iff.1 h
      obtain ⟨_, _, hend, ⟨⟩⟩ := Reading.andThen_eq_ok_iff.1 h
      obtain ⟨us, rfl, hus, -⟩ := readExpression_eq_ok_iff.1 he
      obtain ⟨s, rfl, hs⟩ := readSemicolon_eq_ok_iff.1 hend
      exact ⟨t :: a :: (us ++ [s]), by simp, .assignment hk ha hus hs⟩
    · cases h
  · cases h

theorem readStatement_of_derivesStmt {us : List Token} {s : Stmt} (h : DerivesStmt us s)
    (rest : List Token) : readStatement (us ++ rest) = .ok (s, rest) := by
  cases h with
  | @declaration t x s ty us init ht hx hinit hs =>
    obtain ⟨hk, hty⟩ := Token.is_eq_true_iff.1 ht
    have hinit := readInitializer_of_derivesInit hinit hs rest
    simp [readStatement, hk, hty, readDeclaration, readName_cons hx, hinit, readSemicolon_cons hs]
  | @assignment x a s us e hx ha he hs =>
    have he := readExpression_eq_ok_iff.2 ⟨us, rfl, he, .of_semicolon hs rest⟩
    simp [readStatement, hx, ha, readAssignment, he, readSemicolon_cons hs]
  | @print t x s ht hint hfloat hx hs =>
    have hty := Ty.ofKeyword?_eq_none_iff.2 ⟨hint, hfloat⟩
    simp [readStatement, ht, hty, readPrint, readName_cons hx, readSemicolon_cons hs]

theorem readStatements_eq_ok_iff {ts : List Token} {stmts : List Stmt} :
    readStatements ts = .ok stmts ↔ DerivesStmts ts stmts := by
  constructor
  · intro h
    fun_induction readStatements ts generalizing stmts with
    | case1 => cases h; exact .nil
    | case2 => cases h
    | case3 t ts s rest hs _ ih =>
      cases hrest : readStatements rest with
      | error f => rw [hrest] at h; cases h
      | ok tail =>
        rw [hrest] at h
        cases h
        obtain ⟨us, hus, hstmt⟩ := derivesStmt_of_readStatement hs
        rw [hus]
        exact .cons hstmt (ih hrest)
  · intro h
    induction h with
    | nil => exact readStatements_nil
    | cons h _ ih => rw [readStatements_of_ok (readStatement_of_derivesStmt h _), ih]; rfl

theorem parse_eq_ok_iff {ts : List Token} {p : Program} :
    parse ts = .ok p ↔ DerivesProgram ts p := by
  rw [DerivesProgram, ← readStatements_eq_ok_iff]
  unfold parse Cursor.parse Cursor.start
  obtain ⟨stmts⟩ := p
  cases readStatements ts with
  | error f => simp
  | ok stmts => simp

theorem toOption_parse_eq_some_iff {ts : List Token} {p : Program} :
    (parse ts).toOption = some p ↔ parse ts = .ok p := by
  cases parse ts <;> simp [Except.toOption]

instance (ts : List Token) (p : Program) : Decidable (parse ts = .ok p) :=
  decidable_of_iff _ toOption_parse_eq_some_iff

instance (ts : List Token) (p : Program) : Decidable (DerivesProgram ts p) :=
  decidable_of_iff _ parse_eq_ok_iff

/-- Parsing accepts exactly the lists of tokens that the grammar derives, with the only tree that
they derive, and rejects every other list with an error. -/
theorem parse_iff_derivesProgram (ts : List Token) :
    (∀ p, parse ts = .ok p ↔ DerivesProgram ts p) ∧
      (∀ p q, DerivesProgram ts p → DerivesProgram ts q → p = q) ∧
      ((∃ e, parse ts = .error e) ↔ ¬ ∃ p, DerivesProgram ts p) := by
  refine ⟨fun p => parse_eq_ok_iff, fun p q hp hq => ?_, ?_⟩
  · rw [← parse_eq_ok_iff] at hp hq
    exact Except.ok.inj (hp.symm.trans hq)
  · constructor
    · rintro ⟨e, he⟩ ⟨p, hp⟩
      rw [← parse_eq_ok_iff, he] at hp
      cases hp
    · intro h
      cases hts : parse ts with
      | error e => exact ⟨e, rfl⟩
      | ok p => exact absurd ⟨p, parse_eq_ok_iff.1 hts⟩ h

end ThreeAddress
