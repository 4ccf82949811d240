import ThreeAddress.Proofs.Listing
import ThreeAddress.Proofs.RecordedValues

/-!
# The listing determines the code

The operands of the code of a parsed text are numerals, names and temporaries, and none of them has
a blank or a line feed in it (`not_mem_render_of_parse`). So every line of the listing is one line
and falls into its words, whatever the variables are called, and reading the words back gives the
instruction up to the spelling of its operands (`map_render_eq_iff`). More is not to be had: a
temporary and a variable of its spelling look the same.
-/

namespace ThreeAddress

/-! ### Operands of a parsed text -/

/-- The lexeme of a number or of a name. -/
def IsAtom (text : String) : Prop :=
  IsNumeral text ∨ IsName text

theorem within_of_parse {source : String} {p : Program} (h : parse (tokenize source) = .ok p) :
    ∀ o ∈ codeOperands p.code, o.Within IsAtom (stmtsOperators p.stmts) := by
  rw [Program.code_eq]
  refine within_stmtsCodeFrom (fun s hs => ?_) (Nat.le_of_eq (Nat.zero_add _))
  have hs := named_of_parse h s hs
  exact hs.imp₂ hs (fun _ hx _ => .inl hx) fun _ hx _ => .inr hx

theorem IsAtom.not_mem {text : String} (h : IsAtom text) {c : Char} (hc : isLexical c = false) :
    c ∉ text.toList := by
  rcases h with hnum | hname
  · obtain ⟨kind, -, hkind⟩ := hnum.matches
    exact hkind.not_mem hc
  · exact Token.Kind.Matches.not_mem hname hc

/-- A character that stands in no lexeme stands in no operand. -/
theorem not_mem_render_of_parse {source : String} {p : Program}
    (h : parse (tokenize source) = .ok p) {c : Char} (hc : isLexical c = false) :
    ∀ o ∈ codeOperands p.code, c ∉ o.render.toList := by
  intro o ho
  cases o with
  | name text => exact (within_of_parse h _ ho : IsAtom text).not_mem hc
  | temp n => exact Operand.not_mem_render_temp hc n

/-! ### Lines -/

theorem Instr.isLine_render {i : Instr} (h : ∀ o ∈ i.operands, Text.IsLine o.render) :
    Text.IsLine i.render := by
  have hblank : Text.IsLine " " := by decide
  have hequals : Text.IsLine " = " := by decide
  cases i with
  | declare name ty =>
    have hname : Text.IsLine name := h (.name name) (by simp [operands])
    exact (((by decide : Text.IsLine "DECLARE ").append hname).append (by decide)).append
      ty.isLine_keyword
  | copy dst src =>
    have hdst := h dst (by simp [operands])
    have hsrc := h src (by simp [operands])
    exact (hdst.append hequals).append hsrc
  | binary dst op left right =>
    have hdst := h dst (by simp [operands])
    have hleft := h left (by simp [operands])
    have hright := h right (by simp [operands])
    have hop : Text.IsLine op.symbol := by cases op <;> decide
    exact ((((hdst.append hequals).append hleft).append hblank).append hop).append hblank
      |>.append hright
  | print name =>
    have hname : Text.IsLine name := h (.name name) (by simp [operands])
    exact (by decide : Text.IsLine "PRINT ").append hname

theorem Instr.render_spelled (i : Instr) : i.spelled.render = i.render := by
  cases i <;> rfl

/-- If no operand has a blank in it, equal lines are lines of the same instructions, up to the
spelling of operands. -/
theorem map_render_eq_iff {code code' : List Instr}
    (h : ∀ o ∈ codeOperands code, ' ' ∉ o.render.toList)
    (h' : ∀ o ∈ codeOperands code', ' ' ∉ o.render.toList) :
    code.map Instr.render = code'.map Instr.render ↔
      code.map Instr.spelled = code'.map Instr.spelled := by
  have hread : ∀ {code : List Instr}, (∀ o ∈ codeOperands code, ' ' ∉ o.render.toList) →
      (code.map Instr.render).map Instr.ofLine? = (code.map Instr.spelled).map some := by
    intro code h
    rw [List.map_map, List.map_map]
    exact List.map_congr_left fun i hi =>
      Instr.ofLine?_render fun o ho => h o (List.mem_flatMap.2 ⟨i, hi, ho⟩)
  constructor
  · intro heq
    have hsome := (hread h).symm.trans ((congrArg (List.map Instr.ofLine?) heq).trans (hread h'))
    exact (List.map_inj_right fun _ _ => Option.some.inj).1 hsome
  · intro heq
    have hlines := congrArg (List.map Instr.render) heq
    simpa only [List.map_map, Function.comp_def, Instr.render_spelled] using hlines

/-- No line of the code of a parsed text has a line feed in it. The lines of two parsed texts are
the same, one by one or written as one text, exactly if their instructions are the same once every
temporary is replaced by its spelling. -/
theorem listing_determines_code {source source' : String} {p q : Program}
    (hp : parse (tokenize source) = .ok p) (hq : parse (tokenize source') = .ok q) :
    (∀ line ∈ p.code.map Instr.render, Text.IsLine line) ∧
      (p.code.map Instr.render = q.code.map Instr.render ↔
        p.code.map Instr.spelled = q.code.map Instr.spelled) ∧
      (Text.unlines (p.code.map Instr.render) = Text.unlines (q.code.map Instr.render) ↔
        p.code.map Instr.spelled = q.code.map Instr.spelled) := by
  have hlines : ∀ {source : String} {p : Program}, parse (tokenize source) = .ok p →
      ∀ line ∈ p.code.map Instr.render, Text.IsLine line := by
    intro source p h line hline
    obtain ⟨i, hi, rfl⟩ := List.mem_map.1 hline
    exact Instr.isLine_render fun o ho =>
      not_mem_render_of_parse h (by decide) o (List.mem_flatMap.2 ⟨i, hi, ho⟩)
  have hiff := map_render_eq_iff (not_mem_render_of_parse hp (by decide))
    (not_mem_render_of_parse hq (by decide))
  refine ⟨hlines hp, hiff, Iff.trans ⟨?_, congrArg Text.unlines⟩ hiff⟩
  exact Text.unlines_injective (hlines hp) (hlines hq)

/-- Two texts with one listing. The second line of the products reads the variable `t0` in the first
text and a temporary in the second, and the third line the other way round. -/
theorem listing_determines_code_lookalike :
    ∃ p q, parse (tokenize "int as; DECLARE = 1 * 2 + t0 * 3; print PRINT;") = .ok p ∧
      parse (tokenize "int as; DECLARE = t0 + 1 * 2 * 3; print PRINT;") = .ok q ∧
      Text.unlines (p.code.map Instr.render) = "DECLARE as as int\nt0 = 1 * 2\nt1 = t0 * 3\n" ++
        "t2 = t0 + t1\nDECLARE = t2\nPRINT PRINT\n" ∧
      p.code ≠ q.code ∧ p.code.map Instr.spelled = q.code.map Instr.spelled := by
  have hp : parse (tokenize "int as; DECLARE = 1 * 2 + t0 * 3; print PRINT;") = .ok
      ⟨[.declaration .int "as" none, .assignment "DECLARE" (.binary .add
        (.binary .mul (.number "1") (.number "2"))
        (.binary .mul (.identifier "t0") (.number "3"))), .print "PRINT"]⟩ := by
    decide +kernel
  have hq : parse (tokenize "int as; DECLARE = t0 + 1 * 2 * 3; print PRINT;") = .ok
      ⟨[.declaration .int "as" none, .assignment "DECLARE" (.binary .add (.identifier "t0")
        (.binary .mul (.binary .mul (.number "1") (.number "2")) (.number "3"))),
        .print "PRINT"]⟩ := by
    decide +kernel
  obtain ⟨-, -, htext⟩ := listing_determines_code hp hq
  exact ⟨_, _, hp, hq, by decide, by decide, htext.1 (by decide)⟩

end ThreeAddress
