import ThreeAddress.Proofs.Printing
import ThreeAddress.Proofs.Readers

/-!
# Programs as source texts

`Program.source` writes a program as a text, the words of its statements in the order of the grammar
with single blanks between them. Scanning a text of that kind gives back the words
(`tokenize_join`), and the words of a program are the texts of any tokens that derive it
(`DerivesStmts.map_text`). A program can be read from a text exactly if its names and numbers are
spelled as such and its expressions are grouped as the grammar groups them (`Expr.grouped`), and
then it is read from its own source.
-/

namespace ThreeAddress

/-! ### Words and tokens -/

/-- A token without its place. -/
def Token.lexeme (t : Token) : Token.Kind × String :=
  (t.kind, t.text)

def Token.onLine (n : Nat) (t : Token) : Token :=
  { t with line := n }

theorem relabels_onLine (n : Nat) : Relabels (Token.onLine n) id :=
  ⟨fun _ => rfl, fun _ _ => rfl, fun _ _ => rfl⟩

theorem lineTokens_join {ts : List Token} (h : ∀ t ∈ ts, t.Matches) (n : Nat) :
    lineTokens n (" ".intercalate (ts.map Token.text)).toList = ts.map (Token.onLine n) := by
  induction ts with
  | nil => simp [lineTokens]
  | cons t ts ih =>
    have ht : t.kind.Matches t.text.toList := h t (by simp)
    have hhead := lineTokens_lexeme ht n
    cases ts with
    | nil => simpa [Token.onLine] using hhead
    | cons u ts =>
      have hrest := ih fun v hv => h v (by simp [hv])
      have htext : (" ".intercalate ((t :: u :: ts).map Token.text)).toList =
          t.text.toList ++ ' ' :: (" ".intercalate ((u :: ts).map Token.text)).toList := by
        simp
      rw [htext, lineTokens_append_blank, hhead, hrest]
      rfl

theorem newline_not_mem_join {ts : List Token} (h : ∀ t ∈ ts, t.Matches) :
    '\n' ∉ (" ".intercalate (ts.map Token.text)).toList := by
  have hnewline : isLexical '\n' = false := by decide
  induction ts with
  | nil => simp
  | cons t ts ih =>
    have ht : t.kind.Matches t.text.toList := h t (by simp)
    have hrest := ih fun v hv => h v (by simp [hv])
    cases ts with
    | nil => simpa using ht.not_mem hnewline
    | cons u ts => simpa using ⟨ht.not_mem hnewline, by simpa using hrest⟩

/-- Lexemes with single blanks between them are scanned one by one. -/
theorem tokenize_join {ts : List Token} (h : ∀ t ∈ ts, t.Matches) :
    tokenize (" ".intercalate (ts.map Token.text)) = ts.map (Token.onLine 1) := by
  rw [tokenize_of_not_mem (newline_not_mem_join h), lineTokens_join h]

/-! ### The words of a program -/

/-- The operands and operators in order. -/
def Expr.words : Expr → List String
  | number text => [text]
  | identifier name => [name]
  | binary op left right => left.words ++ op.symbol :: right.words

def Stmt.words : Stmt → List String
  | declaration ty name init =>
    ty.keyword :: name :: (init.elim [] ("=" :: ·.words) ++ [";"])
  | assignment name value => name :: "=" :: (value.words ++ [";"])
  | print name => ["print", name, ";"]

/-- The program as a text: its words, with single blanks between them. -/
def Program.source (p : Program) : String :=
  " ".intercalate (p.stmts.flatMap Stmt.words)

theorem DerivesFactor.words_eq {t : Token} {e : Expr} (h : DerivesFactor t e) :
    e.words = [t.text] := by
  cases h <;> rfl

theorem DerivesTerm.map_text {ts : List Token} {e : Expr} (h : DerivesTerm ts e) :
    ts.map Token.text = e.words := by
  induction h with
  | factor h => exact h.words_eq.symm
  | link _ ht _ hright ih =>
    simp [Expr.words, ih, hright.words_eq, (Token.is_eq_true_iff.1 ht).2]

theorem DerivesExpr.map_text {ts : List Token} {e : Expr} (h : DerivesExpr ts e) :
    ts.map Token.text = e.words := by
  induction h with
  | term h => exact h.map_text
  | link _ ht _ hright ih =>
    simp [Expr.words, ih, hright.map_text, (Token.is_eq_true_iff.1 ht).2]

theorem Token.Matches.text_of_assignment {t : Token} (h : t.Matches) (ht : t.kind = .assignment) :
    t.text = "=" := by
  have htext : t.text.toList = ['='] := by simpa [Token.Matches, ht, Token.Kind.Matches] using h
  exact String.toList_inj.1 htext

/-- Only one keyword names no type. -/
theorem Token.Matches.text_of_keyword {t : Token} (h : t.Matches) (ht : t.kind = .keyword)
    (hint : t.text ≠ "int") (hfloat : t.text ≠ "float") : t.text = "print" := by
  have htext : t.text ∈ keywords := by simpa [Token.Matches, ht, Token.Kind.Matches] using h
  simpa [keywords, hint, hfloat] using htext

theorem DerivesInit.map_text {ts : List Token} {init : Option Expr} (h : DerivesInit ts init)
    (hts : ∀ t ∈ ts, t.Matches) : ts.map Token.text = init.elim [] ("=" :: ·.words) := by
  cases h with
  | absent => rfl
  | present ha he =>
    simp [(hts _ List.mem_cons_self).text_of_assignment ha, he.map_text]

theorem DerivesStmt.map_text {ts : List Token} {s : Stmt} (h : DerivesStmt ts s)
    (hts : ∀ t ∈ ts, t.Matches) : ts.map Token.text = s.words := by
  cases h with
  | @declaration t x s ty ts init ht hx hinit hs =>
    have hinit' := hinit.map_text fun u hu => hts u (by simp [hu])
    simp [Stmt.words, hinit', (Token.is_eq_true_iff.1 ht).2, (Token.is_eq_true_iff.1 hs).2]
  | @assignment x a s ts e hx ha he hs =>
    have ha' := (hts a (by simp)).text_of_assignment ha
    simp [Stmt.words, ha', he.map_text, (Token.is_eq_true_iff.1 hs).2]
  | @print t x s ht hint hfloat hx hs =>
    have ht' := (hts t (by simp)).text_of_keyword ht hint hfloat
    simp [Stmt.words, ht', (Token.is_eq_true_iff.1 hs).2]

theorem DerivesStmts.map_text {ts : List Token} {stmts : List Stmt} (h : DerivesStmts ts stmts)
    (hts : ∀ t ∈ ts, t.Matches) : ts.map Token.text = stmts.flatMap Stmt.words := by
  induction h with
  | nil => rfl
  | cons h _ ih =>
    have hfirst := h.map_text fun t ht => hts t (by simp [ht])
    have hrest := ih fun t ht => hts t (by simp [ht])
    rw [List.map_append, hfirst, hrest, List.flatMap_cons]

/-- The source of a program has the lexemes of any tokens that derive it. -/
theorem tokenize_source {ts : List Token} {p : Program} (h : DerivesProgram ts p)
    (hts : ∀ t ∈ ts, t.Matches) : tokenize p.source = ts.map (Token.onLine 1) := by
  rw [Program.source, ← DerivesStmts.map_text h hts, tokenize_join hts]

/-! ### The grouping of the grammar -/

/-- Whether the expression is grouped as the grammar does it: no sum or difference is the right
operand of `+` or `-` or the left one of `*` or `/`, and only a single operand is the right one of
`*` or `/`. -/
def Expr.grouped : Expr → Bool
  | binary op left right =>
    left.grouped && right.grouped &&
      if op.isMultiplicative then !left.isSum && right.isOperand else !right.isSum
  | _ => true

def Stmt.grouped : Stmt → Bool
  | declaration _ _ init => init.all Expr.grouped
  | assignment _ value => value.grouped
  | print _ => true

theorem Expr.grouped_binary_iff {op : BinOp} {left right : Expr} :
    (binary op left right).grouped = true ↔ left.grouped = true ∧ right.grouped = true ∧
      if op.isMultiplicative then left.isSum = false ∧ right.isOperand = true
      else right.isSum = false := by
  rw [grouped]
  split <;> simp [and_assoc]

theorem DerivesFactor.isOperand {t : Token} {e : Expr} (h : DerivesFactor t e) :
    e.isOperand = true := by
  cases h <;> rfl

theorem Expr.grouped_of_isOperand {e : Expr} (h : e.isOperand = true) :
    e.grouped = true ∧ e.isSum = false := by
  cases e with
  | number | identifier => exact ⟨rfl, rfl⟩
  | binary => cases h

theorem DerivesTerm.grouped {ts : List Token} {e : Expr} (h : DerivesTerm ts e) :
    e.grouped = true ∧ e.isSum = false := by
  induction h with
  | factor h => exact Expr.grouped_of_isOperand h.isOperand
  | @link _ _ _ op left right _ _ hop hright ih =>
    have hmul := isMultiplicative_iff.2 hop
    have hoperand := Expr.grouped_of_isOperand hright.isOperand
    refine ⟨Expr.grouped_binary_iff.2 ⟨ih.1, hoperand.1, ?_⟩, ?_⟩
    · rw [if_pos hmul]
      exact ⟨ih.2, hright.isOperand⟩
    · simp [Expr.isSum, hmul]

theorem DerivesExpr.grouped {ts : List Token} {e : Expr} (h : DerivesExpr ts e) :
    e.grouped = true := by
  induction h with
  | term h => exact h.grouped.1
  | link _ _ hop hright ih =>
    have hadd := isMultiplicative_eq_false_iff.2 hop
    refine Expr.grouped_binary_iff.2 ⟨ih, hright.grouped.1, ?_⟩
    rw [if_neg (by simp [hadd])]
    exact hright.grouped.2

theorem DerivesStmt.grouped {ts : List Token} {s : Stmt} (h : DerivesStmt ts s) :
    s.grouped = true := by
  cases h with
  | declaration _ _ hinit _ =>
    cases hinit with
    | absent => rfl
    | present _ he => exact he.grouped
  | assignment _ _ he _ => exact he.grouped
  | print => rfl

theorem DerivesStmts.grouped {ts : List Token} {stmts : List Stmt} (h : DerivesStmts ts stmts) :
    ∀ s ∈ stmts, s.grouped = true := by
  induction h with
  | nil => simp
  | cons h _ ih =>
    intro s hs
    rcases List.mem_cons.1 hs with rfl | hs
    · exact h.grouped
    · exact ih s hs

/-! ### Tokens for a program -/

theorem Expr.exists_derivesFactor {e : Expr} (he : e.Texts IsNumeral IsName)
    (hoperand : e.isOperand = true) : ∃ t : Token, t.Matches ∧ DerivesFactor t e := by
  cases e with
  | number text =>
    obtain ⟨kind, rfl | rfl, hkind⟩ := IsNumeral.matches he
    · exact ⟨⟨.number, text, 1⟩, hkind, .number rfl⟩
    · exact ⟨⟨.floatNumber, text, 1⟩, hkind, .floatNumber rfl⟩
  | identifier name => exact ⟨⟨.identifier, name, 1⟩, he, .identifier rfl⟩
  | binary => cases hoperand

theorem BinOp.exists_token (op : BinOp) : ∃ t : Token, t.Matches ∧ t.is .operator op.symbol :=
  ⟨⟨.operator, op.symbol, 1⟩, op.matches_symbol, by simp⟩

theorem Expr.exists_derives {e : Expr} (he : e.Texts IsNumeral IsName) (h : e.grouped = true) :
    ∃ ts : List Token, (∀ t ∈ ts, t.Matches) ∧ DerivesExpr ts e ∧
      (e.isSum = false → DerivesTerm ts e) := by
  induction e with
  | number | identifier =>
    obtain ⟨t, ht, hfactor⟩ := exists_derivesFactor he rfl
    exact ⟨[t], by simpa using ht, .term (.factor hfactor), fun _ => .factor hfactor⟩
  | binary op left right ihl ihr =>
    obtain ⟨hleft, hright, hshape⟩ := grouped_binary_iff.1 h
    obtain ⟨t, ht, hop⟩ := op.exists_token
    obtain ⟨ts, hts, hexpr, hterm⟩ := ihl he.1 hleft
    by_cases hmul : op.isMultiplicative = true
    · rw [if_pos hmul] at hshape
      obtain ⟨u, hu, hfactor⟩ := exists_derivesFactor he.2 hshape.2
      have hlink := (hterm hshape.1).link hop (isMultiplicative_iff.1 hmul) hfactor
      refine ⟨ts ++ [t, u], ?_, .term hlink, fun _ => hlink⟩
      simpa [or_imp, forall_and] using ⟨hts, ht, hu⟩
    · rw [if_neg hmul] at hshape
      obtain ⟨us, hus, -, hterm'⟩ := ihr he.2 hright
      have hadd := isMultiplicative_eq_false_iff.1 (Bool.eq_false_iff.2 hmul)
      refine ⟨ts ++ t :: us, ?_, hexpr.link hop hadd (hterm' hshape), ?_⟩
      · simpa [or_imp, forall_and] using ⟨hts, ht, hus⟩
      · intro hsum
        simp [isSum, hmul] at hsum

theorem exists_derivesInit {init : Option Expr} (hinit : ∀ e ∈ init, e.Texts IsNumeral IsName)
    (h : init.all Expr.grouped = true) :
    ∃ ts : List Token, (∀ t ∈ ts, t.Matches) ∧ DerivesInit ts init := by
  cases init with
  | none => exact ⟨[], by simp, .absent⟩
  | some e =>
    obtain ⟨ts, hts, hexpr, -⟩ := Expr.exists_derives (hinit e rfl) h
    have hassign : (⟨.assignment, "=", 1⟩ : Token).Matches := rfl
    exact ⟨⟨.assignment, "=", 1⟩ :: ts, by simpa using ⟨hassign, hts⟩, .present rfl hexpr⟩

theorem Stmt.exists_derives {s : Stmt} (hs : s.Texts IsNumeral IsName) (h : s.grouped = true) :
    ∃ ts : List Token, (∀ t ∈ ts, t.Matches) ∧ DerivesStmt ts s := by
  have hend : (⟨.separator, ";", 1⟩ : Token).Matches := by simp [Token.Matches, Token.Kind.Matches]
  cases s with
  | declaration ty x init =>
    obtain ⟨ts, hts, hinit⟩ := exists_derivesInit hs.2 h
    have htype : (⟨.keyword, ty.keyword, 1⟩ : Token).Matches := by
      cases ty <;> simp [Token.Matches, Token.Kind.Matches, Ty.keyword, keywords]
    have hname : (⟨.identifier, x, 1⟩ : Token).Matches := hs.1
    refine ⟨_, ?_, .declaration (t := ⟨.keyword, ty.keyword, 1⟩) (x := ⟨.identifier, x, 1⟩)
      (s := ⟨.separator, ";", 1⟩) (by simp) rfl hinit (by decide)⟩
    simpa [or_imp, forall_and] using ⟨htype, hname, hts, hend⟩
  | assignment x e =>
    obtain ⟨ts, hts, hexpr, -⟩ := Expr.exists_derives hs.2 h
    have hname : (⟨.identifier, x, 1⟩ : Token).Matches := hs.1
    have hassign : (⟨.assignment, "=", 1⟩ : Token).Matches := rfl
    refine ⟨_, ?_, .assignment (x := ⟨.identifier, x, 1⟩) (a := ⟨.assignment, "=", 1⟩)
      (s := ⟨.separator, ";", 1⟩) rfl rfl hexpr (by decide)⟩
    simpa [or_imp, forall_and] using ⟨hname, hassign, hts, hend⟩
  | print x =>
    have hprint : (⟨.keyword, "print", 1⟩ : Token).Matches := by
      simp [Token.Matches, Token.Kind.Matches, keywords]
    have hname : (⟨.identifier, x, 1⟩ : Token).Matches := hs
    refine ⟨_, ?_, .print (t := ⟨.keyword, "print", 1⟩) (x := ⟨.identifier, x, 1⟩)
      (s := ⟨.separator, ";", 1⟩) rfl (by decide) (by decide) rfl (by decide)⟩
    simpa using ⟨hprint, hname, hend⟩

theorem exists_derivesStmts {stmts : List Stmt}
    (h : ∀ s ∈ stmts, s.Texts IsNumeral IsName ∧ s.grouped = true) :
    ∃ ts : List Token, (∀ t ∈ ts, t.Matches) ∧ DerivesStmts ts stmts := by
  induction stmts with
  | nil => exact ⟨[], by simp, .nil⟩
  | cons s stmts ih =>
    obtain ⟨hs, hstmts⟩ := List.forall_mem_cons.1 h
    obtain ⟨ts, hts, hstmt⟩ := Stmt.exists_derives hs.1 hs.2
    obtain ⟨us, hus, hrest⟩ := ih hstmts
    exact ⟨ts ++ us, List.forall_mem_append.2 ⟨hts, hus⟩, .cons hstmt hrest⟩

/-! ### Writing and reading back -/

theorem parse_tokenize_source {p : Program}
    (h : ∀ s ∈ p.stmts, s.Texts IsNumeral IsName ∧ s.grouped = true) :
    parse (tokenize p.source) = .ok p := by
  obtain ⟨ts, hts, hstmts⟩ := exists_derivesStmts h
  have hparse : parse ts = .ok p := parse_eq_ok_iff.2 hstmts
  rw [tokenize_source hstmts hts, (relabels_onLine 1).parse, hparse]
  simp

/-- A program whose names and numbers are spelled as such, and whose expressions are grouped as the
grammar groups them, is read back from its source. Every program that is read from a text is of this
kind, and its source has the categories and texts of the tokens that it was read from. -/
theorem source_roundtrip :
    (∀ p : Program, (∀ s ∈ p.stmts, s.Texts IsNumeral IsName ∧ s.grouped = true) →
      parse (tokenize p.source) = .ok p) ∧
    ∀ (text : String) (p : Program), parse (tokenize text) = .ok p →
      (∀ s ∈ p.stmts, s.Texts IsNumeral IsName ∧ s.grouped = true) ∧
      (tokenize p.source).map Token.lexeme = (tokenize text).map Token.lexeme := by
  refine ⟨fun p => parse_tokenize_source, fun text p h => ⟨fun s hs => ?_, ?_⟩⟩
  · exact ⟨named_of_parse h s hs, DerivesStmts.grouped (parse_eq_ok_iff.1 h) s hs⟩
  · rw [tokenize_source (parse_eq_ok_iff.1 h) fun t ht => matches_of_mem_tokenize ht,
      List.map_map]
    rfl

/-- Both parts at a program with operators of both kinds, two kinds of numbers and no blanks. -/
theorem source_roundtrip_dense :
    ∃ p, parse (tokenize "float x1=2.5-3*4/y-1;print x1;") = .ok p ∧
      p.source = "float x1 = 2.5 - 3 * 4 / y - 1 ; print x1 ;" ∧
      parse (tokenize p.source) = .ok p := by
  have hparse : parse (tokenize "float x1=2.5-3*4/y-1;print x1;") =
      .ok ⟨[.declaration .float "x1" (some (.binary .sub (.binary .sub (.number "2.5")
        (.binary .div (.binary .mul (.number "3") (.number "4")) (.identifier "y")))
        (.number "1"))), .print "x1"]⟩ := by
    decide +kernel
  exact ⟨_, hparse, by decide +kernel,
    source_roundtrip.1 _ (source_roundtrip.2 _ _ hparse).1⟩

end ThreeAddress
