import Mathlib.Data.Finset.Card
import Mathlib.Data.Finset.Range
import ThreeAddress.Proofs.Operands
import ThreeAddress.Proofs.Session
import ThreeAddress.Proofs.SourceText

/-!
# What the stages keep

Nothing is dropped and nothing is made up on the way from tokens to code: a `Tally` counts the
statements, operators, stores and prints, and the tokens of a program, its statements and its code
have the same one (`Tally.ofTokens_of_derivesStmts`, `Tally.ofCode_stmtsCodeFrom`). Every operator
has a temporary of its own (`card_temporaries`). The symbol table lists the declared names with
their types as the tokens do, each keyword of a type with the name behind it
(`signaturesOf_of_derivesStmts`, `SymbolTable.signatures_analyze`).
-/

namespace ThreeAddress

/-! ### Tallies -/

inductive Instr.Kind
  | declare
  | copy
  | binary
  | print
deriving Repr, DecidableEq

def Instr.kind : Instr → Instr.Kind
  | declare _ _ => .declare
  | copy _ _ => .copy
  | binary _ _ _ _ => .binary
  | print _ => .print

/-- How often there is what every stage has to keep. -/
structure Tally where
  statements : Nat
  operators : Nat
  stores : Nat
  prints : Nat
deriving Repr, DecidableEq

namespace Tally

instance : Add Tally where
  add a b := ⟨a.statements + b.statements, a.operators + b.operators, a.stores + b.stores,
    a.prints + b.prints⟩

@[simp] theorem mk_add_mk (a b c d a' b' c' d' : Nat) :
    (⟨a, b, c, d⟩ + ⟨a', b', c', d'⟩ : Tally) = ⟨a + a', b + b', c + c', d + d'⟩ := rfl

/-- Tokens by what they stand for: a semicolon for a statement, an assignment sign for a store. -/
def ofTokens (ts : List Token) : Tally where
  statements := ts.countP (·.is .separator ";")
  operators := ts.countP (·.kind = .operator)
  stores := ts.countP (·.kind = .assignment)
  prints := ts.countP (·.is .keyword "print")

/-- Instructions by what they stand for: all but the binary ones for a statement. -/
def ofCode (code : List Instr) : Tally where
  statements := code.countP (·.kind = .declare) + code.countP (·.kind = .copy) +
    code.countP (·.kind = .print)
  operators := code.countP (·.kind = .binary)
  stores := code.countP (·.kind = .copy)
  prints := code.countP (·.kind = .print)

def ofStmt : Stmt → Tally
  | .declaration _ _ none => ⟨1, 0, 0, 0⟩
  | .declaration _ _ (some e) | .assignment _ e => ⟨1, e.operators, 1, 0⟩
  | .print _ => ⟨1, 0, 0, 1⟩

def ofStmts : List Stmt → Tally
  | [] => ⟨0, 0, 0, 0⟩
  | s :: stmts => ofStmt s + ofStmts stmts

/-- What a single token stands for. -/
def ofToken (t : Token) : Tally :=
  match t.kind with
  | .separator => ⟨if t.text = ";" then 1 else 0, 0, 0, 0⟩
  | .operator => ⟨0, 1, 0, 0⟩
  | .assignment => ⟨0, 0, 1, 0⟩
  | .keyword => ⟨0, 0, 0, if t.text = "print" then 1 else 0⟩
  | _ => ⟨0, 0, 0, 0⟩

theorem ofTokens_cons (t : Token) (ts : List Token) :
    ofTokens (t :: ts) = ofToken t + ofTokens ts := by
  cases hk : t.kind <;>
    simp [ofToken, ofTokens, Token.is, List.countP_cons, Nat.add_comm, hk]

theorem ofTokens_append (ts us : List Token) : ofTokens (ts ++ us) = ofTokens ts + ofTokens us := by
  simp [ofTokens]

theorem ofCode_append (code more : List Instr) :
    ofCode (code ++ more) = ofCode code + ofCode more := by
  simp only [ofCode, List.countP_append, mk_add_mk, mk.injEq, and_true]
  omega

theorem statements_ofStmts (stmts : List Stmt) : (ofStmts stmts).statements = stmts.length := by
  have hone : ∀ s, (ofStmt s).statements = 1 := by
    intro s
    unfold ofStmt
    split <;> rfl
  induction stmts with
  | nil => rfl
  | cons s stmts ih =>
    show (ofStmt s).statements + (ofStmts stmts).statements = stmts.length + 1
    rw [hone, ih, Nat.add_comm]

theorem operators_ofStmts (stmts : List Stmt) :
    (ofStmts stmts).operators = stmtsOperators stmts := by
  have hone : ∀ s, (ofStmt s).operators = s.operators := by
    intro s
    unfold ofStmt
    split <;> rfl
  induction stmts with
  | nil => rfl
  | cons s stmts ih =>
    show (ofStmt s).operators + (ofStmts stmts).operators = _
    rw [hone, ih, stmtsOperators]

/-! ### Tokens and statements -/

theorem ofToken_of_derivesFactor {t : Token} {e : Expr} (h : DerivesFactor t e) :
    ofToken t = ⟨0, 0, 0, 0⟩ ∧ e.operators = 0 := by
  rcases h with hk | hk | hk <;> simp [ofToken, hk, Expr.operators]

theorem ofTokens_of_derivesTerm {ts : List Token} {e : Expr} (h : DerivesTerm ts e) :
    ofTokens ts = ⟨0, e.operators, 0, 0⟩ := by
  induction h with
  | factor h =>
    obtain ⟨ht, he⟩ := ofToken_of_derivesFactor h
    rw [ofTokens_cons, ht, he]
    rfl
  | @link ts t u op left right _ ht _ hright ih =>
    obtain ⟨hu, hright⟩ := ofToken_of_derivesFactor hright
    rw [ofTokens_append, ih, ofTokens_cons, ofTokens_cons, hu, Expr.operators, hright]
    simp [ofToken, Token.kind_of_is ht, ofTokens]

theorem ofTokens_of_derivesExpr {ts : List Token} {e : Expr} (h : DerivesExpr ts e) :
    ofTokens ts = ⟨0, e.operators, 0, 0⟩ := by
  induction h with
  | term h => exact ofTokens_of_derivesTerm h
  | @link ts us t op left right _ ht _ hright ih =>
    rw [ofTokens_append, ih, ofTokens_cons, ofTokens_of_derivesTerm hright, Expr.operators]
    simp [ofToken, Token.kind_of_is ht, Nat.add_comm, Nat.add_left_comm]

theorem ofTokens_semicolon {s : Token} (h : s.is .separator ";") :
    ofTokens [s] = ⟨1, 0, 0, 0⟩ := by
  obtain ⟨hk, htext⟩ := Token.is_eq_true_iff.1 h
  simp [ofTokens, Token.is, hk, htext]

/-- The tokens of a statement. An assignment sign opens the value of a declaration as well. -/
theorem ofTokens_of_derivesStmt {ts : List Token} {s : Stmt} (h : DerivesStmt ts s)
    (hts : ∀ t ∈ ts, t.Matches) : ofTokens ts = ofStmt s := by
  cases h with
  | @declaration t x s ty ts init ht hx hinit hs =>
    obtain ⟨hk, htext⟩ := Token.is_eq_true_iff.1 ht
    have hty : ty.keyword ≠ "print" := by cases ty <;> decide
    rw [ofTokens_cons, ofTokens_cons, ofTokens_append, ofTokens_semicolon hs]
    cases hinit with
    | absent => simp [ofToken, hk, htext, hty, hx, ofTokens, ofStmt]
    | @present a us e ha he =>
      rw [ofTokens_cons, ofTokens_of_derivesExpr he]
      simp [ofToken, hk, htext, hty, hx, ha, ofStmt]
  | @assignment x a s ts e hx ha he hs =>
    rw [ofTokens_cons, ofTokens_cons, ofTokens_append, ofTokens_semicolon hs,
      ofTokens_of_derivesExpr he]
    simp [ofToken, hx, ha, ofStmt]
  | @print t x s ht hint hfloat hx hs =>
    have htext := (hts t (by simp)).text_of_keyword ht hint hfloat
    rw [ofTokens_cons, ofTokens_cons, ofTokens_semicolon hs]
    simp [ofToken, ht, htext, hx, ofStmt]

theorem ofTokens_of_derivesStmts {ts : List Token} {stmts : List Stmt} (h : DerivesStmts ts stmts)
    (hts : ∀ t ∈ ts, t.Matches) : ofTokens ts = ofStmts stmts := by
  induction h with
  | nil => rfl
  | cons h _ ih =>
    have hfirst := ofTokens_of_derivesStmt h fun t ht => hts t (by simp [ht])
    have hrest := ih fun t ht => hts t (by simp [ht])
    rw [ofTokens_append, hfirst, hrest, ofStmts]

/-! ### Statements and code -/

theorem ofCode_exprCodeFrom (e : Expr) (n : Nat) :
    ofCode (e.codeFrom n) = ⟨0, e.operators, 0, 0⟩ := by
  induction e generalizing n with
  | number | identifier => rfl
  | binary op left right ihl ihr =>
    rw [Expr.codeFrom, ofCode_append, ofCode_append, ihl, ihr, Expr.operators]
    simp [ofCode, Instr.kind]

theorem ofCode_stmtCodeFrom (s : Stmt) (n : Nat) : ofCode (s.codeFrom n) = ofStmt s := by
  have hstore : ∀ (name : String) (e : Expr),
      ofCode (e.codeFrom n ++ [.copy (.name name) (e.place n)]) = ⟨1, e.operators, 1, 0⟩ := by
    intro name e
    rw [ofCode_append, ofCode_exprCodeFrom]
    simp [ofCode, Instr.kind]
  cases s with
  | declaration ty name init =>
    cases init with
    | none => rfl
    | some value => exact hstore name value
  | assignment name value => exact hstore name value
  | print name => rfl

theorem ofCode_stmtsCodeFrom (stmts : List Stmt) (n : Nat) :
    ofCode (stmtsCodeFrom n stmts) = ofStmts stmts := by
  induction stmts generalizing n with
  | nil => rfl
  | cons s stmts ih => rw [stmtsCodeFrom, ofCode_append, ofCode_stmtCodeFrom, ih, ofStmts]

end Tally

/-! ### Temporaries -/

def Operand.temp? : Operand → Option Nat
  | name _ => none
  | temp n => some n

/-- The numbers of the temporaries in the code, as often as they occur. -/
def temporaries (code : List Instr) : List Nat :=
  (codeOperands code).filterMap Operand.temp?

theorem mem_temporaries_iff {code : List Instr} {k : Nat} :
    k ∈ temporaries code ↔ .temp k ∈ codeOperands code := by
  rw [temporaries, List.mem_filterMap]
  constructor
  · rintro ⟨o, ho, hk⟩
    cases o with
    | name text => cases hk
    | temp n =>
      cases hk
      exact ho
  · exact fun h => ⟨_, h, rfl⟩

/-- The code of a program has as many temporaries as the program has operators. -/
theorem card_temporaries (p : Program) :
    (temporaries p.code).toFinset.card = stmtsOperators p.stmts := by
  have hrange : (temporaries p.code).toFinset = Finset.range (stmtsOperators p.stmts) := by
    ext k
    rw [List.mem_toFinset, mem_temporaries_iff, Finset.mem_range, Program.code_eq]
    constructor
    · intro hk
      have htexts : ∀ s ∈ p.stmts, s.Texts (fun _ => True) fun _ => True := fun s _ =>
        Stmt.texts_of_names fun _ _ => trivial
      exact within_stmtsCodeFrom htexts (Nat.le_of_eq (Nat.zero_add _)) _ hk
    · intro hk
      exact temp_mem_stmtsCodeFrom p.stmts (Nat.zero_le k) (by omega)
  rw [hrange, Finset.card_range]

/-! ### Declared names and types -/

/-- The type that the token names, if it is the keyword of one. -/
def Token.type? (t : Token) : Option Ty :=
  match t.kind with
  | .keyword => Ty.ofKeyword? t.text
  | _ => none

/-- The names with their types in a list of tokens: every keyword of a type that has an identifier
behind it, with the text of that identifier. -/
def signaturesOf : List Token → List (String × Ty)
  | [] => []
  | t :: ts =>
    match t.type?, ts.head? with
    | some ty, some x =>
      if x.kind = .identifier then (x.text, ty) :: signaturesOf ts else signaturesOf ts
    | _, _ => signaturesOf ts

def Stmt.signature? : Stmt → Option (String × Ty)
  | declaration ty name _ => some (name, ty)
  | assignment _ _ | print _ => none

theorem Token.type?_of_kind {t : Token} (h : t.kind ≠ .keyword) : t.type? = none := by
  unfold Token.type?
  split
  · next hk => exact absurd hk h
  · rfl

/-- In an expression there are only operands and operators. -/
theorem DerivesTerm.kind_ne {ts : List Token} {e : Expr} (h : DerivesTerm ts e) :
    ∀ t ∈ ts, t.kind ≠ .keyword ∧ t.kind ≠ .separator := by
  have hfactor : ∀ {t : Token} {e : Expr}, DerivesFactor t e →
      t.kind ≠ .keyword ∧ t.kind ≠ .separator := by
    rintro t e (hk | hk | hk) <;> simp [hk]
  induction h with
  | factor h =>
    intro t ht
    rw [List.mem_singleton.1 ht]
    exact hfactor h
  | link _ ht _ hright ih =>
    intro t' ht'
    rcases List.mem_append.1 ht' with ht' | ht'
    · exact ih t' ht'
    · rcases (by simpa using ht' : _ ∨ _) with rfl | rfl
      · simp [Token.kind_of_is ht]
      · exact hfactor hright

theorem DerivesExpr.kind_ne {ts : List Token} {e : Expr} (h : DerivesExpr ts e) :
    ∀ t ∈ ts, t.kind ≠ .keyword ∧ t.kind ≠ .separator := by
  induction h with
  | term h => exact h.kind_ne
  | link _ ht _ hright ih =>
    intro t' ht'
    rcases List.mem_append.1 ht' with ht' | ht'
    · exact ih t' ht'
    · rcases List.mem_cons.1 ht' with rfl | ht'
      · simp [Token.kind_of_is ht]
      · exact hright.kind_ne t' ht'

theorem DerivesInit.kind_ne {ts : List Token} {init : Option Expr} (h : DerivesInit ts init) :
    ∀ t ∈ ts, t.kind ≠ .keyword ∧ t.kind ≠ .separator := by
  cases h with
  | absent => simp
  | present ha he =>
    intro t ht
    rcases List.mem_cons.1 ht with rfl | ht
    · simp [ha]
    · exact he.kind_ne t ht

/-- The only separator in a statement is the semicolon at its end. -/
theorem DerivesStmt.text_of_separator {ts : List Token} {s : Stmt} (h : DerivesStmt ts s)
    {t : Token} (ht : t ∈ ts) (hk : t.kind = .separator) : t.text = ";" := by
  have hend : ∀ {u : Token}, u.is .separator ";" → u.text = ";" := fun hu =>
    (Token.is_eq_true_iff.1 hu).2
  cases h with
  | declaration hty hx hinit hs =>
    rcases (by simpa using ht : _ ∨ _ ∨ _ ∨ _) with rfl | rfl | ht | rfl
    · simp [Token.kind_of_is hty] at hk
    · simp [hx] at hk
    · exact absurd hk (hinit.kind_ne t ht).2
    · exact hend hs
  | assignment hx ha he hs =>
    rcases (by simpa using ht : _ ∨ _ ∨ _ ∨ _) with rfl | rfl | ht | rfl
    · simp [hx] at hk
    · simp [ha] at hk
    · exact absurd hk (he.kind_ne t ht).2
    · exact hend hs
  | print hkeyword _ _ hx hs =>
    rcases (by simpa using ht : _ ∨ _ ∨ _) with rfl | rfl | rfl
    · simp [hkeyword] at hk
    · simp [hx] at hk
    · exact hend hs

theorem DerivesStmts.text_of_separator {ts : List Token} {stmts : List Stmt}
    (h : DerivesStmts ts stmts) {t : Token} (ht : t ∈ ts) (hk : t.kind = .separator) :
    t.text = ";" := by
  induction h with
  | nil => cases ht
  | cons h _ ih =>
    rcases List.mem_append.1 ht with ht | ht
    · exact h.text_of_separator ht hk
    · exact ih ht

/-- Where the keywords of types are in a statement: in front of the name that it declares. -/
theorem DerivesStmt.type?_cases {ts : List Token} {s : Stmt} (h : DerivesStmt ts s) :
    (s.signature? = none ∧ ∀ t ∈ ts, t.type? = none) ∨
      ∃ t x rest ty, ts = t :: x :: rest ∧ s.signature? = some (x.text, ty) ∧
        t.type? = some ty ∧ x.kind = .identifier ∧ ∀ u ∈ x :: rest, u.type? = none := by
  cases h with
  | @declaration t x s ty ts init ht hx hinit hs =>
    obtain ⟨hk, htext⟩ := Token.is_eq_true_iff.1 ht
    refine .inr ⟨t, x, ts ++ [s], ty, rfl, rfl, by simp [Token.type?, hk, htext], hx, ?_⟩
    intro u hu
    refine Token.type?_of_kind ?_
    rcases (by simpa using hu : _ ∨ _ ∨ _) with rfl | hu | rfl
    · simp [hx]
    · exact (hinit.kind_ne u hu).1
    · simp [Token.kind_of_is hs]
  | @assignment x a s ts e hx ha he hs =>
    refine .inl ⟨rfl, fun u hu => Token.type?_of_kind ?_⟩
    rcases (by simpa using hu : _ ∨ _ ∨ _ ∨ _) with rfl | rfl | hu | rfl
    · simp [hx]
    · simp [ha]
    · exact (he.kind_ne u hu).1
    · simp [Token.kind_of_is hs]
  | @print t x s ht hint hfloat hx hs =>
    refine .inl ⟨rfl, fun u hu => ?_⟩
    rcases (by simpa using hu : _ ∨ _ ∨ _) with rfl | rfl | rfl
    · simp [Token.type?, ht, Ty.ofKeyword?_eq_none_iff, hint, hfloat]
    · exact Token.type?_of_kind (by simp [hx])
    · exact Token.type?_of_kind (by simp [Token.kind_of_is hs])

theorem signaturesOf_append {ts : List Token} (h : ∀ t ∈ ts, t.type? = none) (us : List Token) :
    signaturesOf (ts ++ us) = signaturesOf us := by
  induction ts with
  | nil => rfl
  | cons t ts ih =>
    have ht : t.type? = none := h t (by simp)
    rw [List.cons_append, signaturesOf, ht]
    exact ih fun t ht => h t (by simp [ht])

theorem signaturesOf_of_derivesStmts {ts : List Token} {stmts : List Stmt}
    (h : DerivesStmts ts stmts) :
    signaturesOf ts = stmts.filterMap Stmt.signature? ∧
      ts.filterMap Token.type? = (stmts.filterMap Stmt.signature?).map Prod.snd := by
  induction h with
  | nil => exact ⟨rfl, rfl⟩
  | @cons ts us s stmts hs _ ih =>
    rcases hs.type?_cases with ⟨hsig, hnone⟩ | ⟨t, x, rest, ty, rfl, hsig, ht, hx, hnone⟩
    · rw [signaturesOf_append hnone, List.filterMap_append, List.filterMap_eq_nil_iff.2 hnone,
        List.filterMap_cons_none hsig]
      exact ih
    · have htail := signaturesOf_append hnone us
      have htypes := List.filterMap_eq_nil_iff.2 hnone
      rw [List.filterMap_append, List.filterMap_cons_some ht, htypes,
        List.filterMap_cons_some hsig, List.map_cons, ih.2]
      refine ⟨?_, rfl⟩
      rw [List.cons_append, signaturesOf, ht, htail, ih.1]
      simp [hx]

namespace SymbolTable

variable {t : SymbolTable}

theorem Passes.signatures_apply {s : Stmt} {effect : Effect} (h : t.Passes s effect) :
    Rows.signatures (effect.apply t).toList =
      Rows.signatures t.toList ++ s.signature?.toList := by
  cases h with
  | declaration hdef | initialized hdef _ =>
    rw [toList_apply_declare hdef, Rows.signatures, List.map_append]
    rfl
  | assignment hdef _ =>
    rw [toList_apply_assign hdef, Rows.signatures_store]
    exact (List.append_nil _).symm
  | print _ => exact (List.append_nil _).symm

/-- Analysis adds the declared names and types to the table, in the order of the statements. -/
theorem signatures_analyze {stmts : List Stmt} (h : (t.analyze stmts).fault = none) :
    Rows.signatures (t.analyze stmts).table.toList =
      Rows.signatures t.toList ++ stmts.filterMap Stmt.signature? := by
  induction stmts generalizing t with
  | nil => exact (List.append_nil _).symm
  | cons s stmts ih =>
    obtain ⟨effect, hs, hrest⟩ := fault_analyze_cons_eq_none_iff.1 h
    rw [table_analyze_cons hs, ih hrest, hs.signatures_apply, List.append_assoc,
      List.filterMap_cons]
    cases s.signature? <;> rfl

end SymbolTable

/-- What a compiled text has to show at its end for what its tokens are: no parentheses; as many
statements as semicolons, each with one instruction that is not binary; as many binary instructions
and as many different temporaries as operators; a copy for each assignment sign and a print for each
keyword that asks for one; and a symbol table with the names and types that are declared, in their
order, every keyword of a type giving one of them, and no name twice. -/
theorem compile_conserves {source : String} {out : Compilation} (h : compile source = .ok out) :
    (∀ t ∈ out.tokens, t.is .separator "(" = false ∧ t.is .separator ")" = false) ∧
      out.program.stmts.length = out.tokens.countP (·.is .separator ";") ∧
      out.program.stmts.length = out.code.countP (·.kind = .declare) +
        out.code.countP (·.kind = .copy) + out.code.countP (·.kind = .print) ∧
      out.code.countP (·.kind = .binary) = out.tokens.countP (·.kind = .operator) ∧
      (temporaries out.code).toFinset.card = out.tokens.countP (·.kind = .operator) ∧
      out.code.countP (·.kind = .copy) = out.tokens.countP (·.kind = .assignment) ∧
      out.code.countP (·.kind = .print) = out.tokens.countP (·.is .keyword "print") ∧
      Rows.signatures out.symbols.toList = signaturesOf out.tokens ∧
      out.symbols.toList.map Entry.ty = out.tokens.filterMap Token.type? ∧
      (out.symbols.toList.map Entry.name).Nodup := by
  obtain ⟨p, hp, hfault, rfl⟩ := compile_eq_ok_iff.1 h
  have hderives : DerivesStmts (tokenize source) p.stmts := parse_eq_ok_iff.1 hp
  have htokens := Tally.ofTokens_of_derivesStmts hderives fun _ => matches_of_mem_tokenize
  have hcode : Tally.ofCode p.code = Tally.ofTokens (tokenize source) := by
    rw [htokens, Program.code_eq, Tally.ofCode_stmtsCodeFrom]
  have hlength : (tokenize source).countP (·.is .separator ";") = p.stmts.length := by
    rw [← Tally.statements_ofStmts, ← htokens, Tally.ofTokens]
  have hoperators : (tokenize source).countP (·.kind = .operator) = stmtsOperators p.stmts := by
    rw [← Tally.operators_ofStmts, ← htokens, Tally.ofTokens]
  rw [Tally.ofCode, Tally.ofTokens, Tally.mk.injEq] at hcode
  obtain ⟨hstatements, hbinary, hcopy, hprint⟩ := hcode
  obtain ⟨hdeclared, htypes⟩ := signaturesOf_of_derivesStmts hderives
  have hsignatures : Rows.signatures (SymbolTable.empty.analyze p.stmts).table.toList =
      signaturesOf (tokenize source) := by
    rw [hdeclared, SymbolTable.signatures_analyze hfault]
    rfl
  dsimp only
  refine ⟨fun t ht => ?_, hlength.symm, hlength.symm.trans hstatements.symm, hbinary,
    (card_temporaries p).trans hoperators.symm, hcopy, hprint, hsignatures, ?_,
    SymbolTable.nodup_names _⟩
  · have hsemicolon := fun hk => hderives.text_of_separator ht hk
    constructor <;>
    · rw [Bool.eq_false_iff, ne_eq, Token.is_eq_true_iff]
      rintro ⟨hk, htext⟩
      rw [hsemicolon hk] at htext
      exact absurd htext (by decide)
  · rw [htypes, ← hdeclared, ← hsignatures, Rows.signatures, List.map_map]
    rfl

/-- Four statements with three operators in two of them, two stores and one print. -/
theorem compile_conserves_reassigned :
    let source := "int a = 1 + 2 * 3; float b; b = a - 4; print b;"
    ∃ out, compile source = .ok out ∧ out.program.stmts.length = 4 ∧
      out.code.countP (·.kind = .binary) = 3 ∧ (temporaries out.code).toFinset.card = 3 ∧
      out.code.countP (·.kind = .copy) = 2 ∧ out.code.countP (·.kind = .print) = 1 ∧
      Rows.signatures out.symbols.toList = [("a", .int), ("b", .float)] := by
  intro source
  have hp : parse (tokenize source) = .ok ⟨[
      .declaration .int "a" (some (.binary .add (.number "1")
        (.binary .mul (.number "2") (.number "3")))),
      .declaration .float "b" none,
      .assignment "b" (.binary .sub (.identifier "a") (.number "4")), .print "b"]⟩ := by
    decide +kernel
  have hanalyze := SymbolTable.empty.toList_analyze
    [.declaration .int "a" (some (.binary .add (.number "1")
      (.binary .mul (.number "2") (.number "3")))),
    .declaration .float "b" none,
    .assignment "b" (.binary .sub (.identifier "a") (.number "4")), .print "b"]
  obtain ⟨out, hout, htokens⟩ : ∃ out, compile source = .ok out ∧ out.tokens = tokenize source :=
    ⟨_, compile_eq_ok_iff.2 ⟨_, hp, congrArg Prod.fst hanalyze, rfl⟩, rfl⟩
  have htally : Tally.ofTokens out.tokens = ⟨4, 3, 2, 1⟩ := by
    rw [htokens]
    decide +kernel
  have hdeclared : signaturesOf out.tokens = [("a", .int), ("b", .float)] := by
    rw [htokens]
    decide +kernel
  rw [Tally.ofTokens, Tally.mk.injEq] at htally
  obtain ⟨hstatements, hoperators, hstores, hprints⟩ := htally
  obtain ⟨-, hlength, -, hbinary, hcard, hcopy, hprint, hsignatures, -⟩ := compile_conserves hout
  exact ⟨out, hout, hlength.trans hstatements, hbinary.trans hoperators, hcard.trans hoperators,
    hcopy.trans hstores, hprint.trans hprints, hsignatures.trans hdeclared⟩

end ThreeAddress
