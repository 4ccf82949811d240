import ThreeAddress.Code.Lower
import ThreeAddress.Log
import ThreeAddress.Program.Cursor
import ThreeAddress.Program.Tree

/-!
# Compilation

A text is scanned, parsed, analyzed and lowered, in this order, and the first stage that fails
ends the run. Runs share nothing.
-/

namespace ThreeAddress

structure Compilation where
  tokens : List Token
  program : Program
  code : List Instr
  symbols : SymbolTable

def Compilation.codeLines (c : Compilation) : List String :=
  c.code.map Instr.render

structure Run where
  log : List Event
  result : Except CompileError Compilation

/-- Compiles a text, with a log. -/
def run (source : String) : Run :=
  let segments := scan source.toList
  let tokens := tokensOf segments
  let scanned :=
    (segments.filterMap fun (line, segment) => Event.ofSegment? line segment) ++
      [.lexed tokens.length]
  match parse tokens with
  | .error e => ⟨scanned, .error (.malformed e)⟩
  | .ok program =>
    let analysis := SymbolTable.empty.analyze program.stmts
    let checked :=
      scanned ++ .parsed program.stmts.length :: analysis.effects.filterMap Event.ofEffect?
    match analysis.fault with
    | some e => ⟨checked, .error (.misused e)⟩
    | none =>
      let builder := Builder.empty.program program
      let code := builder.code.toList
      ⟨checked ++ .analyzed analysis.table.size :: code.map .emitted ++
          [.generated code.length builder.nextTemp],
        .ok ⟨tokens, program, code, analysis.table⟩⟩

def compile (source : String) : Except CompileError Compilation :=
  (run source).result

/-- The stages of a compilation, the first that fails being the last. -/
theorem compile_eq (source : String) :
    compile source =
      match parse (tokenize source) with
      | .error e => .error (.malformed e)
      | .ok p =>
        match (SymbolTable.empty.analyze p.stmts).fault with
        | some e => .error (.misused e)
        | none => .ok ⟨tokenize source, p, p.code, (SymbolTable.empty.analyze p.stmts).table⟩ := by
  unfold compile run tokenize
  cases hp : parse (tokensOf (scan source.toList)) with
  | error e => simp only [hp]
  | ok p =>
    simp only [hp]
    cases (SymbolTable.empty.analyze p.stmts).fault <;> rfl

/-- A text is compiled exactly if its tokens are a program that passes the analysis; the code is
that of the program. -/
theorem compile_eq_ok_iff {source : String} {c : Compilation} :
    compile source = .ok c ↔ ∃ p, parse (tokenize source) = .ok p ∧
      (SymbolTable.empty.analyze p.stmts).fault = none ∧
      c = ⟨tokenize source, p, p.code, (SymbolTable.empty.analyze p.stmts).table⟩ := by
  rw [compile_eq]
  cases hp : parse (tokenize source) with
  | error e => simp
  | ok p =>
    cases hfault : (SymbolTable.empty.analyze p.stmts).fault with
    | some e => simp [hfault]
    | none => simp [hfault, eq_comm]

/-- A text is rejected by the stage that its tokens or its program fail at. -/
theorem compile_eq_error_iff {source : String} {e : CompileError} :
    compile source = .error e ↔ (∃ s, parse (tokenize source) = .error s ∧ e = .malformed s) ∨
      ∃ p s, parse (tokenize source) = .ok p ∧
        (SymbolTable.empty.analyze p.stmts).fault = some s ∧ e = .misused s := by
  rw [compile_eq]
  cases hp : parse (tokenize source) with
  | error s => simp [eq_comm]
  | ok p =>
    cases hfault : (SymbolTable.empty.analyze p.stmts).fault with
    | some s => simp [hfault, eq_comm]
    | none => simp [hfault]

end ThreeAddress
