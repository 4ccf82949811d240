import ThreeAddress.Compile
import ThreeAddress.Proofs.Emission
import ThreeAddress.Proofs.Grammar
import ThreeAddress.Proofs.LongestMatch
import ThreeAddress.Proofs.Readers

/-!
# One text behind another

A text and a second one behind a line feed are compiled one after the other. Scanning gives the
tokens of both, those of the second on later lines (`tokenize_append`). If the first is a program,
parsing goes on behind it (`parse_append`), the analysis of the second starts from the table that
the first leads to (`analyze_append`), and its code takes the temporaries that the first leaves
free (`code_append`).
-/

namespace ThreeAddress

/-! ### Tokens -/

/-- The token so many lines further down. -/
def Token.shift (lines : Nat) (t : Token) : Token :=
  { t with line := t.line + lines }

theorem lineTokens_add (number lines : Nat) (line : List Char) :
    lineTokens (number + lines) line = (lineTokens number line).map (Token.shift lines) := by
  unfold lineTokens
  rw [List.map_filterMap]
  congr 1
  funext segment
  cases segment <;> rfl

theorem lineTokens_nil (number : Nat) : lineTokens number [] = [] := by
  rw [lineTokens, scanLine_nil, List.filterMap_nil]

/-- The tokens of lines that are numbered from `first` on. -/
def linesTokens (first : Nat) (lines : List (List Char)) : List Token :=
  (lines.zipIdx first).flatMap fun (line, number) => lineTokens number line

theorem linesTokens_append (first : Nat) (lines more : List (List Char)) :
    linesTokens first (lines ++ more) =
      linesTokens first lines ++ linesTokens (first + lines.length) more := by
  rw [linesTokens, List.zipIdx_append, List.flatMap_append]
  rfl

theorem linesTokens_singleton (first : Nat) (line : List Char) :
    linesTokens first [line] = lineTokens first line :=
  List.append_nil _

theorem linesTokens_add (first k : Nat) (lines : List (List Char)) :
    linesTokens (first + k) lines = (linesTokens first lines).map (Token.shift k) := by
  induction lines generalizing first with
  | nil => rfl
  | cons line lines ih =>
    have hsplit : ∀ n, linesTokens n (line :: lines) =
        lineTokens n line ++ linesTokens (n + 1) lines := fun n => by
      rw [← List.singleton_append, linesTokens_append, linesTokens_singleton]
      rfl
    rw [hsplit, hsplit, List.map_append, lineTokens_add, Nat.add_right_comm, ih]

/-- Only a carriage return can be lost with the ending of a line, and it is in no token. -/
theorem lineTokens_stripEnding_append_newline (number : Nat) (line : List Char) :
    lineTokens number (Text.stripEnding (line ++ ['\n'])) = lineTokens number line := by
  rcases Text.stripEnding_append_newline line with h | ⟨rest, rfl, h⟩
  · rw [h]
  · have hreturn : isLexical '\r' = false := by decide
    rw [h, lineTokens_append_cons hreturn, lineTokens_nil, List.append_nil]

/-- A line feed at the end of a text adds no token. -/
theorem linesTokens_lines_append_newline (first : Nat) (s : List Char) :
    linesTokens first (Text.lines (s ++ ['\n'])) = linesTokens first (Text.lines s) := by
  unfold Text.lines
  rcases Text.rawLines_append_newline s with h | ⟨lines, last, hlast, hs, h⟩
  · have hempty : lineTokens (first + ((Text.rawLines s).map Text.stripEnding).length)
        (Text.stripEnding ['\n']) = [] :=
      (lineTokens_stripEnding_append_newline _ []).trans (lineTokens_nil _)
    rw [h, List.map_append, linesTokens_append, List.map_singleton, linesTokens_singleton, hempty,
      List.append_nil]
  · rw [h, hs, List.map_append, List.map_append, linesTokens_append, linesTokens_append,
      List.map_singleton, List.map_singleton, linesTokens_singleton, linesTokens_singleton,
      lineTokens_stripEnding_append_newline, Text.stripEnding_of_not_mem hlast]

theorem tokenize_append (a b : String) :
    tokenize (a ++ "\n" ++ b) =
      tokenize a ++ (tokenize b).map (Token.shift (1 + a.toList.count '\n')) := by
  have hchars : (a ++ "\n" ++ b).toList = a.toList ++ '\n' :: b.toList := by simp
  have hlength : (Text.lines (a.toList ++ ['\n'])).length = 1 + a.toList.count '\n' := by
    rw [Text.lines, List.length_map, Text.length_rawLines_append_newline, Nat.add_comm]
  have hlines : Text.lines (a.toList ++ '\n' :: b.toList) =
      Text.lines (a.toList ++ ['\n']) ++ Text.lines b.toList := by
    rw [Text.lines, Text.rawLines_append_cons, List.map_append]
    rfl
  simp only [tokenize_eq]
  show linesTokens 1 _ = linesTokens 1 _ ++ (linesTokens 1 _).map _
  rw [hchars, hlines, linesTokens_append, linesTokens_lines_append_newline, hlength,
    linesTokens_add]

/-! ### Parsing -/

theorem relabels_shift (lines : Nat) : Relabels (Token.shift lines) id :=
  ⟨fun _ => rfl, fun _ _ => rfl, fun _ _ => rfl⟩

theorem readStatements_append {ts : List Token} {stmts : List Stmt} (h : DerivesStmts ts stmts)
    (us : List Token) : readStatements (ts ++ us) = (readStatements us).map (stmts ++ ·) := by
  induction h with
  | nil =>
    rw [List.nil_append]
    cases readStatements us <;> rfl
  | @cons ts rest s stmts hs _ ih =>
    rw [List.append_assoc, readStatements_of_ok (readStatement_of_derivesStmt hs _), ih]
    cases readStatements us <;> rfl

/-- The error so many tokens and lines further on. -/
def SyntaxError.shift (tokens lines : Nat) (e : SyntaxError) : SyntaxError :=
  ⟨tokens + e.pos, e.found.map (Token.shift lines), e.expected⟩

/-- Behind the tokens of a program, parsing goes on as from the start. -/
theorem parse_append {ts : List Token} {p : Program} (h : parse ts = .ok p) (lines : Nat)
    (us : List Token) :
    parse (ts ++ us.map (Token.shift lines)) =
      match parse us with
      | .ok q => .ok ⟨p.stmts ++ q.stmts⟩
      | .error e => .error (e.shift ts.length lines) := by
  have hts := readStatements_append (parse_eq_ok_iff.1 h) (us.map (Token.shift lines))
  unfold parse Cursor.parse Cursor.start
  rw [hts, (relabels_shift lines).readStatements]
  cases hus : readStatements us with
  | ok stmts => simp [Except.map]
  | error f =>
    have hlen := (suffix_of_readStatements hus).length_le
    have hpos : ts.length + us.length - f.rest.length =
        ts.length + (us.length - f.rest.length) := by
      omega
    simp [Except.map, Failure.map, Cursor.advanceTo, Cursor.error, SyntaxError.shift, hpos]

/-! ### Analysis -/

namespace SymbolTable

variable {t : SymbolTable} {xs : List Stmt}

/-- What follows a fault is not looked at. -/
theorem analyze_append_of_fault {e : SemanticError} (h : (t.analyze xs).fault = some e)
    (ys : List Stmt) : t.analyze (xs ++ ys) = t.analyze xs := by
  induction xs generalizing t with
  | nil => cases h
  | cons s xs ih =>
    rw [List.cons_append, analyze, analyze]
    cases hs : t.check s with
    | error e => rfl
    | ok effect =>
      simp only [analyze, hs] at h ⊢
      rw [ih h]

/-- Statements behind others that pass are analyzed from the table which those lead to. -/
theorem analyze_append (h : (t.analyze xs).fault = none) (ys : List Stmt) :
    (t.analyze (xs ++ ys)).fault = ((t.analyze xs).table.analyze ys).fault ∧
      (t.analyze (xs ++ ys)).table = ((t.analyze xs).table.analyze ys).table := by
  induction xs generalizing t with
  | nil => exact ⟨rfl, rfl⟩
  | cons s xs ih =>
    rw [List.cons_append, analyze, analyze]
    cases hs : t.check s with
    | error e => simp [analyze, hs] at h
    | ok effect =>
      simp only [analyze, hs] at h
      exact ih h

end SymbolTable

/-! ### Code -/

/-- The operand with the number of a temporary increased. -/
def Operand.shift (temps : Nat) : Operand → Operand
  | name text => .name text
  | temp n => .temp (n + temps)

def Instr.shift (temps : Nat) : Instr → Instr
  | declare name ty => .declare name ty
  | copy dst src => .copy (dst.shift temps) (src.shift temps)
  | binary dst op left right =>
    .binary (dst.shift temps) op (left.shift temps) (right.shift temps)
  | print name => .print name

theorem Expr.place_add (e : Expr) (n k : Nat) : e.place (n + k) = (e.place n).shift k := by
  cases e with
  | number | identifier => rfl
  | binary op left right =>
    rw [place_binary, place_binary, Operand.shift, Operand.temp.injEq]
    omega

theorem Expr.codeFrom_add (e : Expr) (n k : Nat) :
    e.codeFrom (n + k) = (e.codeFrom n).map (Instr.shift k) := by
  induction e generalizing n with
  | number | identifier => rfl
  | binary op left right ihl ihr =>
    have hnext : n + k + left.operators = n + left.operators + k := by omega
    have hlast : n + left.operators + k + right.operators =
        n + left.operators + right.operators + k := by omega
    simp only [codeFrom, hnext, hlast, ihl, ihr, place_add, List.map_append, List.map_cons,
      List.map_nil, Instr.shift, Operand.shift]

theorem Stmt.codeFrom_add (s : Stmt) (n k : Nat) :
    s.codeFrom (n + k) = (s.codeFrom n).map (Instr.shift k) := by
  have hstore : ∀ (name : String) (e : Expr),
      e.codeFrom (n + k) ++ [Instr.copy (.name name) (e.place (n + k))] =
        (e.codeFrom n ++ [Instr.copy (.name name) (e.place n)]).map (Instr.shift k) := by
    intro name e
    rw [Expr.codeFrom_add, Expr.place_add, List.map_append]
    rfl
  cases s with
  | declaration ty name init =>
    cases init with
    | none => rfl
    | some value => exact hstore name value
  | assignment name value => exact hstore name value
  | print name => rfl

theorem stmtsCodeFrom_add (stmts : List Stmt) (n k : Nat) :
    stmtsCodeFrom (n + k) stmts = (stmtsCodeFrom n stmts).map (Instr.shift k) := by
  induction stmts generalizing n with
  | nil => rfl
  | cons s stmts ih =>
    have hnext : n + k + s.operators = n + s.operators + k := by omega
    rw [stmtsCodeFrom, stmtsCodeFrom, hnext, ih, s.codeFrom_add, List.map_append]

theorem stmtsCodeFrom_append (xs ys : List Stmt) (n : Nat) :
    stmtsCodeFrom n (xs ++ ys) =
      stmtsCodeFrom n xs ++ stmtsCodeFrom (n + stmtsOperators xs) ys := by
  induction xs generalizing n with
  | nil => rfl
  | cons s xs ih =>
    rw [List.cons_append, stmtsCodeFrom, stmtsCodeFrom, ih, List.append_assoc, stmtsOperators,
      Nat.add_assoc]

theorem code_append (p q : Program) :
    Program.code ⟨p.stmts ++ q.stmts⟩ =
      p.code ++ q.code.map (Instr.shift (stmtsOperators p.stmts)) := by
  rw [Program.code_eq, Program.code_eq, Program.code_eq, stmtsCodeFrom_append, stmtsCodeFrom_add]

/-! ### Compilation -/

/-- Compiling a text behind one whose tokens are the program `pa`: the tokens of both; the syntax
error of the second, shifted; otherwise the fault of the first, if it has one; otherwise what
becomes of the second from the table that the first leads to, with the code of both. -/
theorem compile_append {a : String} {pa : Program} (ha : parse (tokenize a) = .ok pa) (b : String) :
    tokenize (a ++ "\n" ++ b) =
        tokenize a ++ (tokenize b).map (Token.shift (1 + a.toList.count '\n')) ∧
      (∀ e, parse (tokenize b) = .error e → compile (a ++ "\n" ++ b) =
        .error (.malformed (e.shift (tokenize a).length (1 + a.toList.count '\n')))) ∧
      ∀ pb, parse (tokenize b) = .ok pb →
        (∀ e, (SymbolTable.empty.analyze pa.stmts).fault = some e →
          compile (a ++ "\n" ++ b) = .error (.misused e)) ∧
        ((SymbolTable.empty.analyze pa.stmts).fault = none →
          (∀ e, ((SymbolTable.empty.analyze pa.stmts).table.analyze pb.stmts).fault = some e →
            compile (a ++ "\n" ++ b) = .error (.misused e)) ∧
          (((SymbolTable.empty.analyze pa.stmts).table.analyze pb.stmts).fault = none →
            compile (a ++ "\n" ++ b) = .ok
              { tokens := tokenize a ++ (tokenize b).map (Token.shift (1 + a.toList.count '\n'))
                program := ⟨pa.stmts ++ pb.stmts⟩
                code := pa.code ++ pb.code.map (Instr.shift (stmtsOperators pa.stmts))
                symbols :=
                  ((SymbolTable.empty.analyze pa.stmts).table.analyze pb.stmts).table })) := by
  have htokens := tokenize_append a b
  have hparse := parse_append ha (1 + a.toList.count '\n') (tokenize b)
  refine ⟨htokens, ?_, ?_⟩
  · intro e he
    rw [compile_eq, htokens, hparse, he]
  · intro pb hb
    rw [hb] at hparse
    refine ⟨?_, fun hfault => ⟨?_, ?_⟩⟩
    · intro e he
      rw [compile_eq, htokens, hparse]
      simp only [SymbolTable.analyze_append_of_fault he, he]
    · intro e he
      obtain ⟨hfault', -⟩ := SymbolTable.analyze_append hfault pb.stmts
      rw [compile_eq, htokens, hparse]
      simp only [hfault', he]
    · intro hnone
      obtain ⟨hfault', htable⟩ := SymbolTable.analyze_append hfault pb.stmts
      rw [compile_eq, htokens, hparse]
      simp only [hfault', hnone, htable, code_append]

/-- A carriage return at the end of the first text and an empty line at the start of the second:
the error is at token 5, on line 3. -/
theorem compile_append_malformed :
    ∃ pa, parse (tokenize "int x = 1;\r") = .ok pa ∧
      compile ("int x = 1;\r" ++ "\n" ++ "\nx y") =
        .error (.malformed ⟨5, some ⟨.identifier, "x", 3⟩, "Expect statement."⟩) := by
  have ha : parse (tokenize "int x = 1;\r") =
      .ok ⟨[.declaration .int "x" (some (.number "1"))]⟩ := by
    decide +kernel
  have hb : parse (tokenize "\nx y") =
      .error ⟨0, some ⟨.identifier, "x", 2⟩, "Expect statement."⟩ := by
    decide +kernel
  have hshift : SyntaxError.shift (tokenize "int x = 1;\r").length
      (1 + "int x = 1;\r".toList.count '\n')
      ⟨0, some ⟨.identifier, "x", 2⟩, "Expect statement."⟩ =
        ⟨5, some ⟨.identifier, "x", 3⟩, "Expect statement."⟩ := by
    decide +kernel
  have hcompile := (compile_append ha "\nx y").2.1 _ hb
  rw [hshift] at hcompile
  exact ⟨_, ha, hcompile⟩

end ThreeAddress
