import ThreeAddress.Proofs.Listing
import ThreeAddress.Proofs.Session
import ThreeAddress.Proofs.SourceText

/-!
# Recorded values and the printed table

A value that analysis records is a numeral or a chain of numerals and operators, so it has no names
in it (`Value.IsRegular`). This stays so when recorded values are put in the place of variables
again and again: an expression over regular entries has a regular value (`isRegular_of_evaluate`),
a statement keeps the entries regular (`Passes.isRegular`), and so does an analysis
(`isRegular_of_analyze`). Regular values can be read back from how they are printed
(`Value.ofText_render`), so different tables are printed differently.
-/

namespace ThreeAddress

/-! ### Chains of numerals -/

/-- A numeral, and behind it the operators of `links`, each with its numeral, all of them joined by
single blanks. -/
def IsNumeralChain (links : List (BinOp × String)) (text : String) : Prop :=
  ∃ first, IsNumeral first ∧ (∀ l ∈ links, IsNumeral l.2) ∧
    text = " ".intercalate (first :: links.flatMap fun l => [l.1.symbol, l.2])

theorem IsNumeral.isNumeralChain {text : String} (h : IsNumeral text) : IsNumeralChain [] text :=
  ⟨text, h, by simp, by simp⟩

theorem exists_map_text {P : Token → Prop} {words : List String}
    (h : ∀ w ∈ words, ∃ t, P t ∧ t.text = w) :
    ∃ ts : List Token, (∀ t ∈ ts, P t) ∧ ts.map Token.text = words := by
  induction words with
  | nil => exact ⟨[], by simp, rfl⟩
  | cons w words ih =>
    obtain ⟨t, ht, rfl⟩ := h w (by simp)
    obtain ⟨ts, hts, rfl⟩ := ih fun w hw => h w (by simp [hw])
    exact ⟨t :: ts, by simpa using ⟨ht, hts⟩, rfl⟩

namespace IsNumeralChain

variable {links links' : List (BinOp × String)} {text text' : String}

theorem join (h : IsNumeralChain links text) (op : BinOp) (h' : IsNumeralChain links' text') :
    ∃ more, more ≠ [] ∧ IsNumeralChain more (text ++ " " ++ op.symbol ++ " " ++ text') := by
  obtain ⟨first, hfirst, hlinks, rfl⟩ := h
  obtain ⟨first', hfirst', hlinks', rfl⟩ := h'
  refine ⟨links ++ (op, first') :: links', by simp, first, hfirst, ?_, ?_⟩
  · intro l hl
    rcases List.mem_append.1 hl with hl | hl
    · exact hlinks l hl
    · rcases List.mem_cons.1 hl with rfl | hl
      · exact hfirst'
      · exact hlinks' l hl
  · rw [List.flatMap_append, List.flatMap_cons, ← List.cons_append,
      String.intercalate_append_of_ne_nil (by simp) (by simp)]
    simp [String.append_assoc]

/-- The words of a chain are tokens, and no name is among them. -/
theorem exists_tokens (h : IsNumeralChain links text) :
    ∃ ts : List Token, (∀ t ∈ ts, t.Matches ∧ t.kind ≠ .identifier) ∧
      text = " ".intercalate (ts.map Token.text) := by
  obtain ⟨first, hfirst, hlinks, rfl⟩ := h
  have hnumeral : ∀ x, IsNumeral x →
      ∃ t : Token, (t.Matches ∧ t.kind ≠ .identifier) ∧ t.text = x := by
    intro x hx
    obtain ⟨kind, hcases, hkind⟩ := hx.matches
    refine ⟨⟨kind, x, 1⟩, ⟨hkind, ?_⟩, rfl⟩
    rcases hcases with rfl | rfl <;> simp
  have hwords : ∀ w ∈ first :: links.flatMap fun l => [l.1.symbol, l.2],
      ∃ t : Token, (t.Matches ∧ t.kind ≠ .identifier) ∧ t.text = w := by
    intro w hw
    rcases List.mem_cons.1 hw with rfl | hw
    · exact hnumeral w hfirst
    obtain ⟨l, hl, hw⟩ := List.mem_flatMap.1 hw
    rcases List.mem_pair.1 hw with rfl | rfl
    · exact ⟨⟨.operator, l.1.symbol, 1⟩, ⟨l.1.matches_symbol, by simp⟩, rfl⟩
    · exact hnumeral l.2 (hlinks l hl)
  obtain ⟨ts, hts, htext⟩ := exists_map_text hwords
  exact ⟨ts, hts, by rw [htext]⟩

theorem isLine (h : IsNumeralChain links text) : Text.IsLine text := by
  obtain ⟨ts, hts, rfl⟩ := h.exists_tokens
  exact newline_not_mem_join fun t ht => (hts t ht).1

theorem kind_ne_identifier (h : IsNumeralChain links text) :
    ∀ t ∈ tokenize text, t.kind ≠ .identifier := by
  obtain ⟨ts, hts, rfl⟩ := h.exists_tokens
  rw [tokenize_join fun t ht => (hts t ht).1]
  intro t ht
  obtain ⟨u, hu, rfl⟩ := List.mem_map.1 ht
  exact (hts u hu).2

theorem blank_mem (h : IsNumeralChain links text) (hne : links ≠ []) : ' ' ∈ text.toList := by
  obtain ⟨first, -, -, rfl⟩ := h
  obtain ⟨l, links, rfl⟩ := List.exists_cons_of_ne_nil hne
  simp

end IsNumeralChain

/-! ### Regular values -/

/-- Nothing yet, a numeral, or a chain of numerals with an operator in it. -/
def Value.IsRegular : Value → Prop
  | uninitialized => True
  | literal text => IsNumeral text
  | composed text => ∃ links, links ≠ [] ∧ IsNumeralChain links text

theorem Value.IsRegular.exists_chain {v : Value} {text : String} (h : v.IsRegular)
    (htext : v.text? = some text) : ∃ links, IsNumeralChain links text := by
  cases v with
  | uninitialized => cases htext
  | literal s =>
    obtain rfl : s = text := Option.some.inj htext
    exact ⟨[], IsNumeral.isNumeralChain h⟩
  | composed s =>
    obtain rfl : s = text := Option.some.inj htext
    obtain ⟨links, -, hlinks⟩ := h
    exact ⟨links, hlinks⟩

/-- A name with a regular value. -/
structure Entry.IsRegular (e : Entry) : Prop where
  name : IsName e.name
  value : e.value.IsRegular

theorem Rows.isRegular_store {rows : List Entry} (h : ∀ e ∈ rows, e.IsRegular) {name : String}
    {value : Value} (hvalue : value.IsRegular) : ∀ e ∈ store rows name value, e.IsRegular := by
  intro e he
  obtain ⟨row, hrow, rfl⟩ := List.mem_map.1 he
  split
  · exact ⟨(h row hrow).name, hvalue⟩
  · exact h row hrow

namespace SymbolTable

variable {t : SymbolTable}

theorem isRegular_of_evaluate (hreg : ∀ e ∈ t.toList, e.IsRegular) {e : Expr}
    (he : e.Texts IsNumeral IsName) {v : Value} (h : t.evaluate e = .ok v) : v.IsRegular := by
  induction e generalizing v with
  | number text =>
    cases h
    exact he
  | identifier x =>
    rw [evaluate_identifier_eq_ok_iff, valueOf_eq_some_iff] at h
    obtain ⟨entry, hmem, -, rfl⟩ := h
    exact (hreg entry hmem).value
  | binary op left right ihl ihr =>
    obtain ⟨l, r, hl, hr, h⟩ := evaluate_binary_eq_ok_iff.1 h
    obtain ⟨a, b, ha, hb, rfl⟩ := combine_eq_ok_iff.1 h
    obtain ⟨links, hlinks⟩ := (ihl he.1 hl).exists_chain ha
    obtain ⟨links', hlinks'⟩ := (ihr he.2 hr).exists_chain hb
    exact hlinks.join op hlinks'

theorem Passes.isRegular {s : Stmt} {effect : Effect} (h : t.Passes s effect)
    (hreg : ∀ e ∈ t.toList, e.IsRegular) (hs : s.Texts IsNumeral IsName) :
    ∀ e ∈ (effect.apply t).toList, e.IsRegular := by
  have hdeclare : ∀ {name ty v}, t.isDefined name = false → IsName name → v.IsRegular →
      ∀ e ∈ ((Effect.declare name ty v).apply t).toList, e.IsRegular := by
    intro name ty v hdef hname hv e he
    rw [toList_apply_declare hdef] at he
    rcases List.mem_append.1 he with he | he
    · exact hreg e he
    · obtain rfl := List.mem_singleton.1 he
      exact ⟨hname, hv⟩
  cases h with
  | declaration hdef => exact hdeclare hdef hs.1 trivial
  | @initialized _ _ e _ hdef he =>
    exact hdeclare hdef hs.1 (isRegular_of_evaluate hreg (hs.2 e rfl) he)
  | assignment hdef he =>
    rw [toList_apply_assign hdef]
    exact Rows.isRegular_store hreg (isRegular_of_evaluate hreg hs.2 he)
  | print => exact hreg

theorem isRegular_of_analyze {stmts : List Stmt} (hreg : ∀ e ∈ t.toList, e.IsRegular)
    (hs : ∀ s ∈ stmts, s.Texts IsNumeral IsName) :
    ∀ e ∈ (t.analyze stmts).table.toList, e.IsRegular := by
  induction stmts generalizing t with
  | nil => exact hreg
  | cons s rest ih =>
    rw [SymbolTable.analyze]
    cases hcheck : t.check s with
    | error e => exact hreg
    | ok effect =>
      have hstep := (check_eq_ok_iff.1 hcheck).isRegular hreg (hs s (by simp))
      exact ih hstep fun s' hs' => hs s' (by simp [hs'])

end SymbolTable

theorem isRegular_of_compile {source : String} {out : Compilation} (h : compile source = .ok out) :
    ∀ e ∈ out.symbols.toList, e.IsRegular := by
  obtain ⟨p, hp, -, rfl⟩ := compile_eq_ok_iff.1 h
  exact SymbolTable.isRegular_of_analyze (by simp) (named_of_parse hp)

/-! ### Printed tables -/

/-- The value that is printed as the text. -/
def Value.ofText (text : String) : Value :=
  if text = uninitialized.render then .uninitialized
  else if ' ' ∈ text.toList then .composed text
  else .literal text

theorem Value.ofText_render {v : Value} (h : v.IsRegular) : ofText v.render = v := by
  cases v with
  | uninitialized => exact if_pos rfl
  | literal text =>
    have hnum : IsNumeral text := h
    have hne : text ≠ uninitialized.render := by
      rintro rfl
      exact absurd hnum (by decide)
    exact (if_neg hne).trans (if_neg hnum.blank_not_mem)
  | composed text =>
    obtain ⟨links, hlinks, hchain⟩ := h
    have hblank := hchain.blank_mem hlinks
    have hne : text ≠ uninitialized.render := by
      rintro rfl
      exact absurd hblank (by decide)
    exact (if_neg hne).trans (if_pos hblank)

theorem Value.IsRegular.isLine_render {v : Value} (h : v.IsRegular) : Text.IsLine v.render := by
  rw [Value.render]
  cases htext : v.text? with
  | none => decide
  | some text =>
    obtain ⟨links, hlinks⟩ := h.exists_chain htext
    exact hlinks.isLine

theorem Ty.isLine_keyword (ty : Ty) : Text.IsLine ty.keyword := by
  cases ty <;> decide

namespace Entry.IsRegular

variable {e e' : Entry}

theorem isLine_render (h : e.IsRegular) : Text.IsLine e.render := by
  have hname : Text.IsLine e.name := Token.Kind.Matches.not_mem h.name (by decide)
  have hcolon : Text.IsLine ": " := by decide
  have hequals : Text.IsLine " = " := by decide
  exact (((hname.append hcolon).append e.ty.isLine_keyword).append hequals).append
    h.value.isLine_render

/-- The colon ends the name, the blank behind it the type. -/
theorem eq_of_render_eq (h : e.IsRegular) (h' : e'.IsRegular) (heq : e.render = e'.render) :
    e = e' := by
  have hchars : ∀ e : Entry, e.render.toList =
      e.name.toList ++ ':' :: (' ' :: (e.ty.keyword.toList ++ ' ' :: ('=' :: ' ' ::
        e.value.render.toList))) := by
    intro e
    simp [Entry.render]
  have hcolon : ∀ {name}, IsName name → ':' ∉ name.toList := fun hname =>
    Token.Kind.Matches.not_mem hname (by decide)
  have hlist := congrArg String.toList heq
  rw [hchars, hchars] at hlist
  obtain ⟨hname, hlist⟩ := Text.append_cons_inj (hcolon h.name) (hcolon h'.name) hlist
  obtain ⟨hty, hlist⟩ := Text.append_cons_inj e.ty.blank_not_mem_keyword
    e'.ty.blank_not_mem_keyword (List.cons.inj hlist).2
  have hname' : e.name = e'.name := String.toList_inj.1 hname
  have hty' : e.ty = e'.ty := by
    have hsome := congrArg Ty.ofKeyword? (String.toList_inj.1 hty)
    simpa using hsome
  have hvalue : e.value = e'.value := by
    have hrender : e.value.render = e'.value.render := by
      simpa [String.toList_inj] using hlist
    rw [← Value.ofText_render h.value, ← Value.ofText_render h'.value, hrender]
  show Entry.mk e.name e.ty e.value = e'
  rw [hname', hty', hvalue]

end Entry.IsRegular

theorem Rows.eq_of_map_render_eq {rows rows' : List Entry} (h : ∀ e ∈ rows, e.IsRegular)
    (h' : ∀ e ∈ rows', e.IsRegular) (heq : rows.map Entry.render = rows'.map Entry.render) :
    rows = rows' := by
  induction rows generalizing rows' with
  | nil => exact (List.map_eq_nil_iff.1 heq.symm).symm
  | cons e rows ih =>
    obtain ⟨e', rows', rfl, hrender, hrest⟩ := List.map_eq_cons_iff.1 heq.symm
    have hentry := (h e (by simp)).eq_of_render_eq (h' e' (by simp)) hrender.symm
    have hrows := ih (fun a ha => h a (by simp [ha])) (fun a ha => h' a (by simp [ha])) hrest.symm
    rw [hentry, hrows]

theorem SymbolTable.toList_eq_of_render_eq {t t' : SymbolTable} (h : ∀ e ∈ t.toList, e.IsRegular)
    (h' : ∀ e ∈ t'.toList, e.IsRegular) (heq : t.render = t'.render) : t.toList = t'.toList := by
  have hlines : ∀ {rows : List Entry}, (∀ e ∈ rows, e.IsRegular) →
      ∀ line ∈ rows.map Entry.render, Text.IsLine line := by
    intro rows hrows line hline
    obtain ⟨e, he, rfl⟩ := List.mem_map.1 hline
    exact (hrows e he).isLine_render
  exact Rows.eq_of_map_render_eq h h' (Text.unlines_injective (hlines h) (hlines h') heq)

/-- The values in the symbol table of a compiled text are regular, so no name is scanned in their
texts. If the tables of two compiled texts are printed alike, they have the same entries. -/
theorem symbols_regular_unambiguous {source : String} {out : Compilation}
    (h : compile source = .ok out) :
    (∀ e ∈ out.symbols.toList, e.value.IsRegular ∧
      ∀ text, e.value.text? = some text → ∀ t ∈ tokenize text, t.kind ≠ .identifier) ∧
    ∀ source' out', compile source' = .ok out' → out.symbols.render = out'.symbols.render →
      out.symbols.toList = out'.symbols.toList := by
  have hreg := isRegular_of_compile h
  refine ⟨fun e he => ⟨(hreg e he).value, ?_⟩, ?_⟩
  · intro text htext
    obtain ⟨links, hlinks⟩ := (hreg e he).value.exists_chain htext
    exact hlinks.kind_ne_identifier
  · intro source' out' h' heq
    exact SymbolTable.toList_eq_of_render_eq hreg (isRegular_of_compile h') heq

/-- Two programs that record the same values, one of each kind, in different ways. -/
theorem symbols_regular_unambiguous_copies :
    ∃ out out', compile "int a = 1; float b = a + 2.5 * a; int c;" = .ok out ∧
      compile "int a; float b = 1 + 2.5; b = b * 1; int c; a = 1;" = .ok out' ∧
      out.symbols.render = "a: int = 1\nb: float = 1 + 2.5 * 1\nc: int = <uninitialized>\n" ∧
      (∀ e ∈ out.symbols.toList, e.value.IsRegular ∧
        ∀ text, e.value.text? = some text → ∀ t ∈ tokenize text, t.kind ≠ .identifier) ∧
      out.symbols.render = out'.symbols.render ∧ out.symbols.toList = out'.symbols.toList := by
  obtain ⟨p, hstmts⟩ : ∃ p : Program, p = ⟨[.declaration .int "a" (some (.number "1")),
      .declaration .float "b" (some (.binary .add (.identifier "a")
        (.binary .mul (.number "2.5") (.identifier "a")))),
      .declaration .int "c" none]⟩ :=
    ⟨_, rfl⟩
  obtain ⟨p', hstmts'⟩ : ∃ p : Program, p = ⟨[.declaration .int "a" none,
      .declaration .float "b" (some (.binary .add (.number "1") (.number "2.5"))),
      .assignment "b" (.binary .mul (.identifier "b") (.number "1")),
      .declaration .int "c" none, .assignment "a" (.number "1")]⟩ :=
    ⟨_, rfl⟩
  have hp : parse (tokenize "int a = 1; float b = a + 2.5 * a; int c;") = .ok p := by
    rw [hstmts]
    decide +kernel
  have hp' : parse (tokenize "int a; float b = 1 + 2.5; b = b * 1; int c; a = 1;") = .ok p' := by
    rw [hstmts']
    decide +kernel
  have hrows : ∀ q ∈ [p, p'], Rows.analyze [] q.stmts = (none, [⟨"a", .int, .literal "1"⟩,
      ⟨"b", .float, .composed "1 + 2.5 * 1"⟩, ⟨"c", .int, .uninitialized⟩]) := by
    rw [hstmts, hstmts']
    decide
  have htable : ∀ q ∈ [p, p'], (SymbolTable.empty.analyze q.stmts).fault = none ∧
      (SymbolTable.empty.analyze q.stmts).table.render =
        "a: int = 1\nb: float = 1 + 2.5 * 1\nc: int = <uninitialized>\n" := by
    intro q hq
    have hanalyze := SymbolTable.empty.toList_analyze q.stmts
    rw [SymbolTable.toList_empty, hrows q hq, Prod.mk.injEq] at hanalyze
    refine ⟨hanalyze.1, ?_⟩
    rw [SymbolTable.render, hanalyze.2]
    decide
  have hout := compile_eq_ok_iff.2 ⟨p, hp, (htable p (by simp)).1, rfl⟩
  have hout' := compile_eq_ok_iff.2 ⟨p', hp', (htable p' (by simp)).1, rfl⟩
  have hrender := (htable p (by simp)).2.trans (htable p' (by simp)).2.symm
  obtain ⟨hregular, hunambiguous⟩ := symbols_regular_unambiguous hout
  exact ⟨_, _, hout, hout', (htable p (by simp)).2, hregular, hrender,
    hunambiguous _ _ hout' hrender⟩

end ThreeAddress
