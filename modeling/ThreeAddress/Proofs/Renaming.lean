import Mathlib.Data.Set.Function
import ThreeAddress.Proofs.Initialization
import ThreeAddress.Proofs.Layout
import ThreeAddress.Proofs.Session

/-!
# Renamed variables

The names of variables mean nothing to a compilation, only which of them are the same: if they are
renamed injectively, so is all that becomes of the text. For parsing this holds of any map of names
(`Relabels.parse`), and for lowering of any that is applied to names only, which numerals are not
(`Program.code_rename`). Analysis compares names, so it needs that the map keeps different names
apart: over tables that agree up to the names (`SymbolTable.Renamed`) a renamed expression has the
same value, as values have no names in them, or the renamed fault (`Renamed.evaluate`). A statement
keeps the tables so (`Renamed.apply`), hence an analysis ends with such tables
(`Renamed.analyze`).
-/

namespace ThreeAddress

/-! ### Renaming -/

/-- The token with the text of a name changed. -/
def Token.rename (r : String → String) (t : Token) : Token :=
  if t.kind = .identifier then { t with text := r t.text } else t

theorem relabels_rename (r : String → String) : Relabels (Token.rename r) r where
  kind t := by unfold Token.rename; split <;> rfl
  text t ht := by rw [Token.rename, if_neg ht]
  name t ht := by rw [Token.rename, if_pos ht]

def Program.rename (r : String → String) (p : Program) : Program :=
  ⟨p.stmts.map (Stmt.rename r)⟩

/-- The operand with a variable renamed. -/
def Operand.rename (r : String → String) : Operand → Operand
  | name text => .name (if IsNumeral text then text else r text)
  | temp n => .temp n

def Instr.rename (r : String → String) : Instr → Instr
  | declare name ty => .declare (r name) ty
  | copy dst src => .copy (dst.rename r) (src.rename r)
  | binary dst op left right => .binary (dst.rename r) op (left.rename r) (right.rename r)
  | print name => .print (r name)

def Entry.rename (r : String → String) (e : Entry) : Entry :=
  { e with name := r e.name }

def Effect.rename (r : String → String) : Effect → Effect
  | declare name ty value => .declare (r name) ty value
  | assign name value => .assign (r name) value
  | keep => .keep

def SemanticError.rename (r : String → String) : SemanticError → SemanticError
  | alreadyDeclared name => .alreadyDeclared (r name)
  | undeclared name => .undeclared (r name)
  | uninitializedOperand operand op => .uninitializedOperand (r operand) op

def CompileError.rename (r : String → String) : CompileError → CompileError
  | malformed e => .malformed { e with found := e.found.map (Token.rename r) }
  | misused e => .misused (e.rename r)

variable {r : String → String}

/-! ### Code -/

theorem Expr.operators_rename (e : Expr) : (e.rename r).operators = e.operators := by
  induction e with
  | number | identifier => rfl
  | binary op left right ihl ihr => rw [rename, operators, operators, ihl, ihr]

theorem Stmt.operators_rename (s : Stmt) : (s.rename r).operators = s.operators := by
  cases s with
  | declaration ty name init =>
    cases init with
    | none => rfl
    | some value => exact value.operators_rename
  | assignment name value => exact value.operators_rename
  | print name => rfl

theorem Operand.rename_numeral {text : String} (h : IsNumeral text) :
    (name text).rename r = .name text := by
  rw [rename, if_pos h]

theorem Operand.rename_name {text : String} (h : ¬ IsNumeral text) :
    (name text).rename r = .name (r text) := by
  rw [rename, if_neg h]

theorem Expr.place_rename {e : Expr} (he : e.Spelled) (n : Nat) :
    (e.rename r).place n = (e.place n).rename r := by
  cases e with
  | number text => exact (Operand.rename_numeral he).symm
  | identifier name => exact (Operand.rename_name he).symm
  | binary op left right =>
    rw [rename, place, place, operators_rename, operators_rename, Operand.rename]

theorem Expr.codeFrom_rename {e : Expr} (he : e.Spelled) (n : Nat) :
    (e.rename r).codeFrom n = (e.codeFrom n).map (Instr.rename r) := by
  induction e generalizing n with
  | number | identifier => rfl
  | binary op left right ihl ihr =>
    simp only [rename, codeFrom, operators_rename, ihl he.1, ihr he.2, place_rename he.1,
      place_rename he.2, List.map_append, List.map_cons, List.map_nil, Instr.rename,
      Operand.rename]

theorem Stmt.codeFrom_rename {s : Stmt} (hs : s.Spelled) (n : Nat) :
    (s.rename r).codeFrom n = (s.codeFrom n).map (Instr.rename r) := by
  have hstore : ∀ {name : String} {e : Expr}, ¬ IsNumeral name → e.Spelled →
      (e.rename r).codeFrom n ++ [Instr.copy (.name (r name)) ((e.rename r).place n)] =
        (e.codeFrom n ++ [Instr.copy (.name name) (e.place n)]).map (Instr.rename r) := by
    intro name e hname he
    rw [Expr.codeFrom_rename he, Expr.place_rename he, List.map_append, List.map_singleton,
      Instr.rename, Operand.rename_name hname]
  cases s with
  | declaration ty name init =>
    cases init with
    | none => rfl
    | some value => exact hstore hs.1 (hs.2 value rfl)
  | assignment name value => exact hstore hs.1 hs.2
  | print name => rfl

theorem stmtsCodeFrom_rename {stmts : List Stmt} (h : ∀ s ∈ stmts, s.Spelled) (n : Nat) :
    stmtsCodeFrom n (stmts.map (Stmt.rename r)) = (stmtsCodeFrom n stmts).map (Instr.rename r) := by
  induction stmts generalizing n with
  | nil => rfl
  | cons s stmts ih =>
    rw [List.map_cons, stmtsCodeFrom, stmtsCodeFrom, s.operators_rename,
      Stmt.codeFrom_rename (h s (by simp)), ih fun s' hs' => h s' (by simp [hs']), List.map_append]

theorem Program.code_rename {p : Program} (h : ∀ s ∈ p.stmts, s.Spelled) :
    (p.rename r).code = p.code.map (Instr.rename r) := by
  rw [Program.code_eq, Program.code_eq]
  exact stmtsCodeFrom_rename h 0

/-! ### Analysis -/

namespace SymbolTable

/-- The second table has the entries of the first, with the names changed. -/
structure Renamed (r : String → String) (t t' : SymbolTable) : Prop where
  isName : ∀ e ∈ t.toList, IsName e.name
  toList : t'.toList = t.toList.map (Entry.rename r)

theorem renamed_empty (r : String → String) : Renamed r .empty .empty :=
  ⟨by simp, rfl⟩

theorem combine_rename {t : SymbolTable} (op : BinOp) {left right : Expr} {a b : Value}
    (ha : t.evaluate left = .ok a) (hb : t.evaluate right = .ok b) :
    Value.combine op (left.rename r) (right.rename r) a b =
      (Value.combine op left right a b).mapError (SemanticError.rename r) := by
  unfold Value.combine
  cases hleft : a.text? with
  | none =>
    obtain ⟨x, rfl⟩ := exists_name_of_evaluate ha hleft
    rfl
  | some _ =>
    cases hright : b.text? with
    | none =>
      obtain ⟨x, rfl⟩ := exists_name_of_evaluate hb hright
      rfl
    | some _ => rfl

namespace Renamed

variable {t t' : SymbolTable} {x : String} (hr : Set.InjOn r {x | IsName x})
include hr

theorem isDefined (h : Renamed r t t') (hx : IsName x) : t'.isDefined (r x) = t.isDefined x := by
  rw [Bool.eq_iff_iff, isDefined_iff_mem, isDefined_iff_mem, h.toList, List.map_map,
    List.mem_map, List.mem_map]
  constructor
  · rintro ⟨e, he, hname⟩
    exact ⟨e, he, hr (h.isName e he) hx hname⟩
  · rintro ⟨e, he, rfl⟩
    exact ⟨e, he, rfl⟩

theorem get? (h : Renamed r t t') (hx : IsName x) :
    t'.get? (r x) = (t.get? x).map (Entry.rename r) := by
  cases hget : t.get? x with
  | none =>
    have hsome : (t'.get? (r x)).isSome = (t.get? x).isSome := by
      rw [isSome_get?, isSome_get?, h.isDefined hr hx]
    simpa [hget] using hsome
  | some e =>
    obtain ⟨hmem, rfl⟩ := get?_eq_some_iff.1 hget
    refine get?_eq_some_iff.2 ⟨?_, rfl⟩
    rw [h.toList]
    exact List.mem_map_of_mem hmem

theorem evaluate (h : Renamed r t t') {e : Expr} (he : e.Texts IsNumeral IsName) :
    t'.evaluate (e.rename r) = (t.evaluate e).mapError (SemanticError.rename r) := by
  induction e with
  | number text => rfl
  | identifier x =>
    rw [Expr.rename, SymbolTable.evaluate, SymbolTable.evaluate, h.get? hr he]
    cases t.get? x <;> rfl
  | binary op left right ihl ihr =>
    rw [Expr.rename, SymbolTable.evaluate, SymbolTable.evaluate, ihl he.1, ihr he.2]
    cases hl : t.evaluate left with
    | error f => rfl
    | ok a =>
    cases hb : t.evaluate right with
    | error f => rfl
    | ok b => exact combine_rename op hl hb

theorem check (h : Renamed r t t') {s : Stmt} (hs : s.Texts IsNumeral IsName) :
    t'.check (s.rename r) =
      ((t.check s).map (Effect.rename r)).mapError (SemanticError.rename r) := by
  cases s with
  | declaration ty x init =>
    simp only [Stmt.rename, SymbolTable.check, h.isDefined hr hs.1]
    cases t.isDefined x with
    | true => rfl
    | false =>
      cases init with
      | none => rfl
      | some e =>
        simp only [Bool.false_eq_true, ↓reduceIte, Option.map_some, h.evaluate hr (hs.2 e rfl)]
        cases t.evaluate e <;> rfl
  | assignment x e =>
    simp only [Stmt.rename, SymbolTable.check, h.isDefined hr hs.1, h.evaluate hr hs.2]
    cases t.isDefined x with
    | true => cases t.evaluate e <;> rfl
    | false => rfl
  | print x =>
    simp only [Stmt.rename, SymbolTable.check, h.isDefined hr hs]
    cases t.isDefined x <;> rfl

theorem declare (h : Renamed r t t') (hx : IsName x) (hdef : t.isDefined x = false) (ty : Ty)
    (v : Value) :
    Renamed r ((Effect.declare x ty v).apply t) ((Effect.declare (r x) ty v).apply t') := by
  have hdef' : t'.isDefined (r x) = false := (h.isDefined hr hx).trans hdef
  refine ⟨?_, ?_⟩
  · intro e he
    rw [toList_apply_declare hdef] at he
    rcases List.mem_append.1 he with he | he
    · exact h.isName e he
    · obtain rfl := List.mem_singleton.1 he
      exact hx
  · rw [toList_apply_declare hdef, toList_apply_declare hdef', h.toList, List.map_append]
    rfl

theorem assign (h : Renamed r t t') (hx : IsName x) (hdef : t.isDefined x = true) (v : Value) :
    Renamed r ((Effect.assign x v).apply t) ((Effect.assign (r x) v).apply t') := by
  have hdef' : t'.isDefined (r x) = true := (h.isDefined hr hx).trans hdef
  refine ⟨?_, ?_⟩
  · intro e he
    rw [toList_apply_assign hdef] at he
    obtain ⟨row, hrow, rfl⟩ := List.mem_map.1 he
    split <;> exact h.isName row hrow
  · rw [toList_apply_assign hdef, toList_apply_assign hdef', h.toList, Rows.store, Rows.store,
      List.map_map, List.map_map]
    refine List.map_congr_left fun e he => ?_
    -- the row of the new name is the row of the old one
    have hiff : r e.name = r x ↔ e.name = x := hr.eq_iff (h.isName e he) hx
    simp only [Function.comp_apply, Entry.rename, hiff]
    split <;> rfl

theorem apply (h : Renamed r t t') {s : Stmt} {effect : Effect} (hs : s.Texts IsNumeral IsName)
    (hpass : t.Passes s effect) :
    Renamed r (effect.apply t) ((effect.rename r).apply t') := by
  cases hpass with
  | declaration hdef => exact h.declare hr hs.1 hdef _ _
  | initialized hdef he => exact h.declare hr hs.1 hdef _ _
  | assignment hdef he => exact h.assign hr hs.1 hdef _
  | print hdef => exact h

theorem analyze (h : Renamed r t t') {stmts : List Stmt}
    (hs : ∀ s ∈ stmts, s.Texts IsNumeral IsName) :
    (t'.analyze (stmts.map (Stmt.rename r))).fault =
        (t.analyze stmts).fault.map (SemanticError.rename r) ∧
      Renamed r (t.analyze stmts).table (t'.analyze (stmts.map (Stmt.rename r))).table := by
  induction stmts generalizing t t' with
  | nil => exact ⟨rfl, h⟩
  | cons s rest ih =>
    rw [List.map_cons, SymbolTable.analyze, SymbolTable.analyze, h.check hr (hs s (by simp))]
    cases hcheck : t.check s with
    | error e => exact ⟨rfl, h⟩
    | ok effect =>
      have hstep := h.apply hr (hs s (by simp)) (check_eq_ok_iff.1 hcheck)
      exact ih hstep fun s' hs' => hs s' (by simp [hs'])

end Renamed

end SymbolTable

/-! ### Compilation -/

/-- What a compilation gives for its tokens. -/
def Compilation.parts (c : Compilation) : Program × List Instr × List Entry :=
  (c.program, c.code, c.symbols.toList)

/-- If the variables of a text are renamed injectively, its tokens are compiled to the same program,
code and entries with the variables renamed, or rejected with the same error up to the names. -/
theorem compileTokens_rename {r : String → String} (hr : Set.InjOn r {x | IsName x})
    (source : String) :
    (compileTokens ((tokenize source).map (Token.rename r))).map Compilation.parts =
      match compile source with
      | .ok out => .ok (out.program.rename r, out.code.map (Instr.rename r),
          out.symbols.toList.map (Entry.rename r))
      | .error e => .error (e.rename r) := by
  rw [compile_eq_compileTokens, compileTokens, compileTokens, (relabels_rename r).parse]
  cases hp : parse (tokenize source) with
  | error e => rfl
  | ok p =>
    have hcode := Program.code_rename (r := r) (spelled_of_parse hp)
    obtain ⟨hfault, htable⟩ := (SymbolTable.renamed_empty r).analyze hr (named_of_parse hp)
    have htoList := htable.toList
    dsimp only
    rw [hfault]
    cases (SymbolTable.empty.analyze p.stmts).fault with
    | some e => rfl
    | none =>
      simp only [Option.map_none, Except.map, Compilation.parts, htoList]
      rw [← hcode]
      rfl

/-- Variable `a` takes the name that the temporary is spelled with. The numbers stay, in the code
and in the recorded texts, and where an operand has no value, the error names the renamed
variable. -/
theorem compileTokens_rename_swap :
    let r : String → String := Equiv.swap "a" "t0"
    Set.InjOn r {x | IsName x} ∧
      (compileTokens ((tokenize "int a = 1; float b = a + 2.5; print b;").map (Token.rename r))).map
          Compilation.parts =
        .ok (⟨[.declaration .int "t0" (some (.number "1")),
            .declaration .float "b" (some (.binary .add (.identifier "t0") (.number "2.5"))),
            .print "b"]⟩,
          [.copy (.name "t0") (.name "1"), .binary (.temp 0) .add (.name "t0") (.name "2.5"),
            .copy (.name "b") (.temp 0), .print "b"],
          [⟨"t0", .int, .literal "1"⟩, ⟨"b", .float, .composed "1 + 2.5"⟩]) ∧
      (compileTokens ((tokenize "int a; a = 1 * 2 - a;").map (Token.rename r))).map
          Compilation.parts =
        .error (.misused (.uninitializedOperand "t0" "-")) := by
  intro r
  have hr : Set.InjOn r {x | IsName x} := (Equiv.swap "a" "t0").injective.injOn
  refine ⟨hr, ?_, ?_⟩
  · obtain ⟨p, hstmts⟩ : ∃ p : Program, p = ⟨[.declaration .int "a" (some (.number "1")),
        .declaration .float "b" (some (.binary .add (.identifier "a") (.number "2.5"))),
        .print "b"]⟩ :=
      ⟨_, rfl⟩
    have hp : parse (tokenize "int a = 1; float b = a + 2.5; print b;") = .ok p := by
      rw [hstmts]
      decide +kernel
    have hrows : Rows.analyze [] p.stmts =
        (none, [⟨"a", .int, .literal "1"⟩, ⟨"b", .float, .composed "1 + 2.5"⟩]) := by
      rw [hstmts]
      decide
    obtain ⟨hfault, htable⟩ :=
      Prod.mk.inj ((SymbolTable.empty.toList_analyze p.stmts).trans hrows)
    rw [compileTokens_rename hr, compile_eq_ok_iff.2 ⟨p, hp, hfault, rfl⟩]
    simp only [htable]
    rw [hstmts]
    decide +kernel
  · have hp : parse (tokenize "int a; a = 1 * 2 - a;") = .ok ⟨[.declaration .int "a" none,
        .assignment "a" (.binary .sub (.binary .mul (.number "1") (.number "2"))
          (.identifier "a"))]⟩ := by
      decide +kernel
    obtain ⟨hfault, -⟩ := Prod.mk.inj (SymbolTable.empty.toList_analyze
      [.declaration .int "a" none, .assignment "a" (.binary .sub
        (.binary .mul (.number "1") (.number "2")) (.identifier "a"))])
    rw [compileTokens_rename hr, compile_eq_error_iff.2 (.inr ⟨_, _, hp, hfault, rfl⟩)]
    decide +kernel

end ThreeAddress
