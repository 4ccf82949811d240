import ThreeAddress.Proofs.LongestMatch
import ThreeAddress.Proofs.Operands
import ThreeAddress.Proofs.Simulation

/-!
# The code as a listing

As text, code has one place for every spelling: `execLines` reads each line back by its words and
runs it on a single store. If no variable of a compiled text is called like one of its temporaries,
the listing runs like the code, with the temporaries among the variables (`Machine.Spells`), and so
like the program.
-/

namespace ThreeAddress

universe u v w x

/-! ### Reading a line -/

def lineWords (line : String) : List String :=
  (line.toList.splitOn ' ').map String.ofList

/-- The instruction that a line of text stands for. An operand is the place of its spelling. -/
def Instr.ofLine? (line : String) : Option Instr :=
  match lineWords line with
  | ["DECLARE", name, "as", ty] => (Ty.ofKeyword? ty).map (declare name)
  | ["PRINT", name] => some (print name)
  | [dst, "=", src] => some (copy (.name dst) (.name src))
  | [dst, "=", left, op, right] =>
    (BinOp.ofSymbol? op).map fun op => binary (.name dst) op (.name left) (.name right)
  | _ => none

/-- The instruction with every operand replaced by the place of its spelling. -/
def Instr.spelled : Instr → Instr
  | declare name ty => .declare name ty
  | copy dst src => .copy (.name dst.render) (.name src.render)
  | binary dst op left right =>
    .binary (.name dst.render) op (.name left.render) (.name right.render)
  | print name => .print name

theorem lineWords_eq {line : String} {words : List String} (hne : words ≠ [])
    (hwords : ∀ w ∈ words, ' ' ∉ w.toList)
    (hline : line.toList = [' '].intercalate (words.map String.toList)) :
    lineWords line = words := by
  rw [lineWords, hline, List.splitOn_intercalate ' ' (by simpa using hwords) (by simpa using hne)]
  simp

theorem Ty.blank_not_mem_keyword (ty : Ty) : ' ' ∉ ty.keyword.toList := by
  cases ty <;> decide

theorem BinOp.blank_not_mem_symbol (op : BinOp) : ' ' ∉ op.symbol.toList := by
  cases op <;> decide

theorem Instr.ofLine?_render {i : Instr} (h : ∀ o ∈ i.operands, ' ' ∉ o.render.toList) :
    ofLine? i.render = some i.spelled := by
  cases i with
  | declare name ty =>
    have hwords : lineWords (declare name ty).render = ["DECLARE", name, "as", ty.keyword] := by
      refine lineWords_eq (by simp) ?_ ?_
      · have hname : ' ' ∉ name.toList := h (.name name) (by simp [operands])
        simpa [hname] using ty.blank_not_mem_keyword
      · simp [render, List.intercalate]
    simp [ofLine?, hwords, spelled]
  | copy dst src =>
    have hwords : lineWords (copy dst src).render = [dst.render, "=", src.render] := by
      refine lineWords_eq (by simp) ?_ ?_
      · have hdst := h dst (by simp [operands])
        have hsrc := h src (by simp [operands])
        simp [hdst, hsrc]
      · simp [render, List.intercalate]
    simp [ofLine?, hwords, spelled]
  | binary dst op left right =>
    have hwords : lineWords (binary dst op left right).render =
        [dst.render, "=", left.render, op.symbol, right.render] := by
      refine lineWords_eq (by simp) ?_ ?_
      · have hdst := h dst (by simp [operands])
        have hleft := h left (by simp [operands])
        have hright := h right (by simp [operands])
        simp [hdst, hleft, hright, op.blank_not_mem_symbol]
      · simp [render, List.intercalate]
    simp [ofLine?, hwords, spelled]
  | print name =>
    have hwords : lineWords (print name).render = ["PRINT", name] := by
      refine lineWords_eq (by simp) ?_ ?_
      · have hname : ' ' ∉ name.toList := h (.name name) (by simp [operands])
        simp [hname]
      · simp [render, List.intercalate]
    simp [ofLine?, hwords, spelled]

/-! ### Runs of related states -/

namespace Ending

variable {V : Type u} {S : Type v} {T : Type w} {ι κ : Type x} {R : S → T → Prop}

/-- Both print the same, and both fail or both reach states that `R` relates. -/
def Related (R : S → T → Prop) (o : Ending V S) (o' : Ending V T) : Prop :=
  o.printed = o'.printed ∧ Option.Rel R o.final o'.final

theorem related_silent {final : Option S} {final' : Option T} (h : Option.Rel R final final') :
    Related R (silent final : Ending V S) (silent final') :=
  ⟨rfl, h⟩

theorem related_print {s : S} {t : T} (h : R s t) (value : Option V) :
    Related R (print value s) (print value t) := by
  cases value with
  | none => exact ⟨rfl, .none⟩
  | some v => exact ⟨rfl, .some h⟩

theorem Related.andThen {o : Ending V S} {o' : Ending V T} {next : S → Ending V S}
    {next' : T → Ending V T} (h : Related R o o')
    (hnext : ∀ s t, R s t → Related R (next s) (next' t)) :
    Related R (o.andThen next) (o'.andThen next') := by
  obtain ⟨printed, final⟩ := o
  obtain ⟨printed', final'⟩ := o'
  obtain ⟨rfl, hfinal⟩ : printed = printed' ∧ Option.Rel R final final' := h
  cases hfinal with
  | none => exact ⟨rfl, .none⟩
  | @some s t hst =>
    obtain ⟨hprinted, hfinal⟩ := hnext s t hst
    exact ⟨congrArg (printed ++ ·) hprinted, hfinal⟩

theorem Related.map_left {o : Ending V S} {o' : Ending V T} {S' : Type v} {f : S → S'}
    {R' : S' → T → Prop} (h : Related R o o') (hf : ∀ s t, R s t → R' (f s) t) :
    Related R' (o.map f) o' := by
  obtain ⟨printed, final⟩ := o
  obtain ⟨printed', final'⟩ := o'
  obtain ⟨rfl, hfinal⟩ : printed = printed' ∧ Option.Rel R final final' := h
  cases hfinal with
  | none => exact ⟨rfl, .none⟩
  | @some s t hst => exact ⟨rfl, .some (hf s t hst)⟩

/-- Steps that keep states related do so over a whole run. -/
theorem related_run {step : S → ι → Ending V S} {step' : T → κ → Ending V T} {f : ι → κ}
    {items : List ι}
    (hstep : ∀ i ∈ items, ∀ s t, R s t → Related R (step s i) (step' t (f i))) {s : S} {t : T}
    (h : R s t) : Related R (run step s items) (run step' t (items.map f)) := by
  induction items generalizing s t with
  | nil => exact ⟨rfl, .some h⟩
  | cons i items ih =>
    refine (hstep i (by simp) s t h).andThen fun s t hst => ?_
    exact ih (fun j hj => hstep j (by simp [hj])) hst

end Ending

/-! ### One place for every spelling -/

section

variable {V : Type u} {D : Domain V}

/-- Runs a line of text on the places of all spellings; a line that is no instruction fails. -/
def execLine (D : Domain V) (σ : Store V) (line : String) : Ending V (Store V) :=
  match Instr.ofLine? line with
  | some i => (i.exec D ⟨σ, fun _ => none⟩).map Machine.vars
  | none => .silent none

def execLines (D : Domain V) (σ : Store V) (lines : List String) : Ending V (Store V) :=
  .run (execLine D) σ lines

/-- A declaration without a value touches only the declared variable, and what it puts there depends
on nothing but the old value of that variable. -/
structure Domain.Local (D : Domain V) : Prop where
  other : ∀ name ty σ x, x ≠ name → D.declare name ty σ x = σ x
  own : ∀ name ty σ σ', σ name = σ' name → D.declare name ty σ name = D.declare name ty σ' name

/-- The store holds the variables of the machine, and its first `n` temporaries under their
spelling. -/
structure Machine.Spells (n : Nat) (m : Machine V) (σ : Store V) : Prop where
  vars : ∀ x, (∀ k < n, x ≠ (Operand.temp k).render) → σ x = m.vars x
  temps : ∀ k < n, σ (Operand.temp k).render = m.temps k

/-- A text that is not the spelling of a temporary below `n`, or such a temporary. -/
abbrev Operand.Apart (n : Nat) : Operand → Prop :=
  Operand.Within (fun text => ∀ k < n, text ≠ (Operand.temp k).render) n

namespace Machine.Spells

variable {n : Nat} {m : Machine V} {σ : Store V}

theorem read (h : m.Spells n σ) {o : Operand} (ho : o.Apart n) :
    Machine.read D ⟨σ, fun _ => none⟩ (.name o.render) = m.read D o := by
  cases o with
  | name text =>
    have hvars : σ text = m.vars text := h.vars text ho
    simp only [Machine.read, Operand.render, hvars]
  | temp k =>
    have hnum := Operand.not_isNumeral_render_temp k
    simp only [Machine.read, if_neg hnum, h.temps k ho]

theorem write (h : m.Spells n σ) {o : Operand} (ho : o.Apart n) (v : V) :
    Option.Rel (Machine.Spells n) (m.write v o)
      ((Machine.write ⟨σ, fun _ => none⟩ v (.name o.render)).map Machine.vars) := by
  cases o with
  | name text =>
    rw [Machine.write, Operand.render, Machine.write]
    split
    · exact .none
    · refine .some ⟨fun x hx => ?_, fun k hk => ?_⟩
      · simp only [Store.set, h.vars x hx]
      · have hne : (Operand.temp k).render ≠ text := Ne.symm (ho k hk)
        simp only [Store.set, if_neg hne, h.temps k hk]
  | temp l =>
    rw [Machine.write, Machine.write, if_neg (Operand.not_isNumeral_render_temp l)]
    refine .some ⟨fun x hx => ?_, fun k hk => ?_⟩
    · simp only [Store.set, if_neg (hx l ho), h.vars x hx, Machine.setTemp]
    · have hiff : (Operand.temp k).render = (Operand.temp l).render ↔ k = l :=
        ⟨Operand.render_temp_injective, fun hkl => by rw [hkl]⟩
      simp only [Store.set, hiff, Machine.setTemp, h.temps k hk]

theorem declare (hD : D.Local) (h : m.Spells n σ) {name : String}
    (hname : (Operand.name name).Apart n) (ty : Ty) :
    Machine.Spells n { m with vars := D.declare name ty m.vars } (D.declare name ty σ) := by
  refine ⟨fun x hx => ?_, fun k hk => ?_⟩
  · by_cases hx' : x = name
    · subst hx'
      exact hD.own x ty σ m.vars (h.vars x hx)
    · show D.declare name ty σ x = D.declare name ty m.vars x
      rw [hD.other name ty σ x hx', hD.other name ty m.vars x hx', h.vars x hx]
  · have hne : (Operand.temp k).render ≠ name := Ne.symm (hname k hk)
    rw [hD.other name ty σ _ hne]
    exact h.temps k hk

/-- An instruction and the one with its operands spelled out keep the states related. -/
theorem exec (hD : D.Local) (h : m.Spells n σ) {i : Instr} (hi : ∀ o ∈ i.operands, o.Apart n) :
    Ending.Related (Machine.Spells n) (i.exec D m)
      ((i.spelled.exec D ⟨σ, fun _ => none⟩).map Machine.vars) := by
  cases i with
  | declare name ty =>
    have hname : (Operand.name name).Apart n := hi _ (by simp [Instr.operands])
    exact Ending.related_silent (.some (h.declare hD hname ty))
  | copy dst src =>
    have hsrc := h.read (D := D) (hi src (by simp [Instr.operands]))
    rw [Instr.spelled, Instr.exec, Instr.exec, Ending.map_silent, hsrc]
    refine Ending.related_silent ?_
    cases m.read D src with
    | none => exact .none
    | some v => exact h.write (hi dst (by simp [Instr.operands])) v
  | binary dst op left right =>
    have hleft := h.read (D := D) (hi left (by simp [Instr.operands]))
    have hright := h.read (D := D) (hi right (by simp [Instr.operands]))
    rw [Instr.spelled, Instr.exec, Instr.exec, Ending.map_silent, hleft, hright]
    refine Ending.related_silent ?_
    cases m.read D left with
    | none => exact .none
    | some l =>
    cases m.read D right with
    | none => exact .none
    | some r =>
    show Option.Rel _ ((D.apply op l r).bind _) (((D.apply op l r).bind _).map _)
    cases D.apply op l r with
    | none => exact .none
    | some v => exact h.write (hi dst (by simp [Instr.operands])) v
  | print name =>
    have hname : σ name = m.vars name := h.vars name (hi (.name name) (by simp [Instr.operands]))
    rw [Instr.spelled, Instr.exec, Instr.exec, Ending.map_print]
    show Ending.Related _ (.print (m.vars name) m) (.print (σ name) σ)
    rw [hname]
    exact Ending.related_print h _

/-- The listing of code whose operands are all spelled differently runs like the code. -/
theorem execLines (hD : D.Local) (h : m.Spells n σ) {code : List Instr}
    (hcode : ∀ o ∈ codeOperands code, o.Apart n ∧ ' ' ∉ o.render.toList) :
    Ending.Related (Machine.Spells n) (m.exec D code)
      (ThreeAddress.execLines D σ (code.map Instr.render)) := by
  show Ending.Related _ (.run (Instr.exec D) m code)
    (.run (execLine D) σ (code.map Instr.render))
  refine Ending.related_run (fun i hi m σ h => ?_) h
  have hi' : ∀ o ∈ i.operands, o.Apart n ∧ ' ' ∉ o.render.toList := fun o ho =>
    hcode o (List.mem_flatMap.2 ⟨i, hi, ho⟩)
  rw [execLine, Instr.ofLine?_render fun o ho => (hi' o ho).2]
  exact h.exec hD fun o ho => (hi' o ho).1

end Machine.Spells

end

/-! ### Listings of compiled texts -/

theorem IsNumeral.blank_not_mem {text : String} (h : IsNumeral text) : ' ' ∉ text.toList := by
  obtain ⟨kind, -, hkind⟩ := h.matches
  exact hkind.not_mem (by decide)

theorem IsOperandText.blank_not_mem {names : List String} {text : String}
    (h : IsOperandText names text) : ' ' ∉ text.toList := by
  rcases h with hnum | ⟨hname, -⟩
  · exact hnum.blank_not_mem
  · exact Token.Kind.Matches.not_mem hname (by decide)

theorem Operand.not_mem_render_temp {c : Char} (hc : isLexical c = false) (n : Nat) :
    c ∉ (temp n).render.toList := by
  rw [toList_render_temp]
  intro hmem
  have hpart : isWordPart c = true := by
    rcases List.mem_cons.1 hmem with rfl | h
    · decide
    · exact isWordPart_of_isDigit (Nat.isDigit_of_mem_toDigits (by decide) (by decide) h)
  simp [isLexical, hpart] at hc

theorem Operand.blank_not_mem_render_temp (n : Nat) : ' ' ∉ (temp n).render.toList :=
  not_mem_render_temp (by decide) n

/-- In the code of a compiled text, different operands of one spelling are always a temporary and
a variable that is called like it. So all operands are spelled differently exactly if no variable
is called like a temporary which the operators of the program take. If so, the listing, run
with one place for every spelling, prints what the program prints, fails if the program fails, and
leaves the same values in the variables. -/
theorem listing_unambiguous {source : String} {out : Compilation}
    (h : compile source = .ok out) :
    (∀ a ∈ codeOperands out.code, ∀ b ∈ codeOperands out.code, a ≠ b → a.render = b.render →
      ∃ k < stmtsOperators out.program.stmts,
        (Operand.temp k).render ∈ out.symbols.toList.map Entry.name ∧
        ((a = .temp k ∧ b = .name (Operand.temp k).render) ∨
          (a = .name (Operand.temp k).render ∧ b = .temp k))) ∧
    ((∀ a ∈ codeOperands out.code, ∀ b ∈ codeOperands out.code, a ≠ b → a.render ≠ b.render) ↔
      ∀ k < stmtsOperators out.program.stmts,
        (Operand.temp k).render ∉ out.symbols.toList.map Entry.name) ∧
    ((∀ k < stmtsOperators out.program.stmts,
        (Operand.temp k).render ∉ out.symbols.toList.map Entry.name) →
      ∀ (V : Type u) (D : Domain V), D.Local → ∀ σ : Store V,
        Ending.Related (fun ρ τ => ∀ e ∈ out.symbols.toList, ρ e.name = τ e.name)
          (out.program.exec D σ) (execLines D σ out.codeLines)) := by
  have hwithin := within_of_compile h
  have hclash : ∀ a ∈ codeOperands out.code, ∀ b ∈ codeOperands out.code, a ≠ b →
      a.render = b.render → _ :=
    fun a ha b hb hne heq => render_eq_cases (hwithin a ha) (hwithin b hb) heq hne
  obtain ⟨p, hp, hfault, rfl⟩ := compile_eq_ok_iff.1 h
  refine ⟨hclash, ⟨fun hinj k hk hmem => ?_, fun hnone a ha b hb hne heq => ?_⟩, ?_⟩
  · -- both operands occur: a declared variable is written, and every temporary is computed
    obtain ⟨s, hs, hdecl⟩ := (mem_analyze_iff hfault).1 hmem
    have hname : .name (Operand.temp k).render ∈ codeOperands p.code := by
      rw [Program.code_eq]
      exact name_mem_stmtsCodeFrom hs hdecl
    have htemp : .temp k ∈ codeOperands p.code := by
      rw [Program.code_eq]
      exact temp_mem_stmtsCodeFrom p.stmts (Nat.zero_le k) (by simpa using hk)
    exact hinj _ hname _ htemp (by simp) rfl
  · obtain ⟨k, hk, hmem, -⟩ := hclash a ha b hb hne heq
    exact hnone k hk hmem
  · intro hnone V D hD σ
    have hoperands : ∀ o ∈ codeOperands p.code,
        o.Apart (stmtsOperators p.stmts) ∧ ' ' ∉ o.render.toList := by
      intro o ho
      cases o with
      | name text =>
        have htext : IsOperandText _ text := hwithin _ ho
        refine ⟨fun k hk heq => ?_, htext.blank_not_mem⟩
        subst heq
        rcases htext with hnum | ⟨-, hmem⟩
        · exact Operand.not_isNumeral_render_temp k hnum
        · exact hnone k hk hmem
      | temp k => exact ⟨hwithin _ ho, Operand.blank_not_mem_render_temp k⟩
    -- what the places of the temporaries hold at the start does not matter
    have hstart : Machine.Spells (stmtsOperators p.stmts)
        ⟨σ, fun k => σ (Operand.temp k).render⟩ σ := ⟨fun _ _ => rfl, fun _ _ => rfl⟩
    have hexec := exec_code (D := D) (spelled_of_parse hp) ⟨σ, fun k => σ (Operand.temp k).render⟩
    rw [← hexec]
    refine (hstart.execLines hD hoperands).map_left fun m τ hm e he => ?_
    refine (hm.vars e.name fun k hk heq => ?_).symm
    exact hnone k hk (List.mem_map.2 ⟨e, he, heq⟩)

theorem local_integers : integers.Local := by
  refine ⟨fun name ty σ x hx => if_neg hx, fun name ty σ σ' _ => ?_⟩
  simp [integers, Store.set]

/-- A variable called `t1` beside the only temporary, which is spelled `t0`. -/
theorem listing_unambiguous_next :
    ∃ out, compile "int a = 1; int t1 = a + 2; print t1;" = .ok out ∧
      out.codeLines = ["a = 1", "t0 = a + 2", "t1 = t0", "PRINT t1"] ∧
      (∀ a ∈ codeOperands out.code, ∀ b ∈ codeOperands out.code, a ≠ b → a.render ≠ b.render) ∧
      Ending.Related (fun ρ τ => ∀ e ∈ out.symbols.toList, ρ e.name = τ e.name)
        (out.program.exec integers fun _ => none)
        (execLines integers (fun _ => none) out.codeLines) ∧
      (execLines integers (fun _ => none) out.codeLines).printed = [3] := by
  obtain ⟨p, hstmts⟩ : ∃ p : Program, p = ⟨[.declaration .int "a" (some (.number "1")),
      .declaration .int "t1" (some (.binary .add (.identifier "a") (.number "2"))),
      .print "t1"]⟩ :=
    ⟨_, rfl⟩
  have hp : parse (tokenize "int a = 1; int t1 = a + 2; print t1;") = .ok p := by
    rw [hstmts]
    decide +kernel
  have htable : (SymbolTable.empty.analyze p.stmts).fault = none ∧
      (SymbolTable.empty.analyze p.stmts).table.toList.map Entry.name = ["a", "t1"] := by
    simp [hstmts, SymbolTable.analyze, SymbolTable.check, SymbolTable.evaluate, SymbolTable.empty,
      SymbolTable.declare?, SymbolTable.isDefined, SymbolTable.get?, SymbolTable.toList,
      Effect.apply, Value.combine, Value.text?, Except.map, bind, Except.bind]
  have hnone : ∀ k < stmtsOperators p.stmts, (Operand.temp k).render ∉
      (SymbolTable.empty.analyze p.stmts).table.toList.map Entry.name := by
    rw [htable.2, hstmts]
    decide
  have hout := compile_eq_ok_iff.2 ⟨p, hp, htable.1, rfl⟩
  obtain ⟨-, hiff, hrun⟩ := listing_unambiguous.{0} hout
  refine ⟨_, hout, ?_, hiff.2 hnone, hrun hnone Int integers local_integers _, ?_⟩
  all_goals
    rw [hstmts]
    decide +kernel

/-- A variable called `t0` and the temporary with the number 0 are one place of the listing: it
prints 3 where the program prints 1. -/
theorem listing_ambiguous :
    ∃ out, compile "int t0 = 1; int x = t0 + 2; print t0;" = .ok out ∧
      .name "t0" ∈ codeOperands out.code ∧ .temp 0 ∈ codeOperands out.code ∧
      (Operand.name "t0").render = (Operand.temp 0).render ∧
      (out.program.exec integers fun _ => none).printed = [1] ∧
      (execLines integers (fun _ => none) out.codeLines).printed = [3] := by
  have hp : parse (tokenize "int t0 = 1; int x = t0 + 2; print t0;") = .ok
      ⟨[.declaration .int "t0" (some (.number "1")),
        .declaration .int "x" (some (.binary .add (.identifier "t0") (.number "2"))),
        .print "t0"]⟩ := by
    decide +kernel
  have hout := compile_eq_ok_iff.2 ⟨_, hp, ?_, rfl⟩
  · exact ⟨_, hout, by decide, by decide, by decide, by decide +kernel, by decide +kernel⟩
  · simp [SymbolTable.analyze, SymbolTable.check, SymbolTable.evaluate, SymbolTable.empty,
      SymbolTable.declare?, SymbolTable.isDefined, SymbolTable.get?, Effect.apply, Value.combine,
      Value.text?, Except.map, bind, Except.bind]

end ThreeAddress
