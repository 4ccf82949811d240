import ThreeAddress.Proofs.Concatenation
import ThreeAddress.Proofs.SourceText

/-!
# Layout

Compilation sees the lexemes of a text and their order, and nothing else of it. A character that
stands in no lexeme only separates what is before it from what is behind it, and which one it is
does not matter (`lineTokens_map_flatten`); a line feed is such a character, up to the numbers of
the lines (`map_onLine_tokenize`). The stages behind scanning never look at these numbers
(`compileTokens_map`).
-/

namespace ThreeAddress

/-! ### Characters in no lexeme -/

/-- The letters, digits and signs that programs are written with. -/
def isSignificant (c : Char) : Bool :=
  c.isAlphanum || ['_', '.', '=', '+', '-', '*', '/', ';', '(', ')'].contains c

def flattenChar (c : Char) : Char :=
  if isSignificant c then c else ' '

/-- The text in one line, with a blank for every character that is not significant. -/
def flatten (source : String) : String :=
  source.map flattenChar

theorem isSignificant_eq_isLexical (c : Char) : isSignificant c = isLexical c := by
  rw [Bool.eq_iff_iff]
  simp only [isSignificant, isLexical, isWordPart, Bool.or_eq_true, List.contains_eq_mem,
    decide_eq_true_eq, List.mem_cons, List.not_mem_nil, or_false, beq_iff_eq, or_assoc,
    isSome_punctuation?_iff]

/-- Replacing characters that stand in no lexeme changes no token, whatever stands in front. -/
theorem lineTokens_map_flatten (number : Nat) (start rest : List Char) :
    lineTokens number (start ++ rest.map flattenChar) = lineTokens number (start ++ rest) := by
  induction rest generalizing start with
  | nil => rfl
  | cons c rest ih =>
    rw [List.map_cons, flattenChar]
    split
    · have hstart := ih (start ++ [c])
      simpa using hstart
    · next hc =>
      have hlexical : isLexical c = false := by
        rw [← isSignificant_eq_isLexical]
        exact Bool.eq_false_iff.2 hc
      have hrest := ih []
      rw [List.nil_append, List.nil_append] at hrest
      rw [lineTokens_append_cons (by decide), lineTokens_append_cons hlexical, hrest]

/-! ### Line feeds -/

theorem map_onLine_lineTokens (n number : Nat) (line : List Char) :
    (lineTokens number line).map (Token.onLine n) = lineTokens n line := by
  unfold lineTokens
  rw [List.map_filterMap]
  congr 1
  funext segment
  cases segment <;> rfl

theorem map_onLine_tokenize_append (start rest : List Char) (hstart : '\n' ∉ start) :
    (tokenize (String.ofList (start ++ rest))).map (Token.onLine 1) =
      lineTokens 1 (start ++ rest) := by
  have hline : ∀ line : List Char, '\n' ∉ line →
      tokenize (String.ofList line) = lineTokens 1 line := by
    intro line h
    rw [tokenize_of_not_mem (by rwa [String.toList_ofList]), String.toList_ofList]
  induction rest generalizing start with
  | nil => rw [List.append_nil, hline start hstart, map_onLine_lineTokens]
  | cons c rest ih =>
    by_cases hc : c = '\n'
    · subst hc
      have htext : String.ofList (start ++ '\n' :: rest) =
          String.ofList start ++ "\n" ++ String.ofList rest := by
        simp [← String.toList_inj]
      -- how far down the second part stands is forgotten
      have hshift : ∀ lines, Token.onLine 1 ∘ Token.shift lines = Token.onLine 1 := fun _ => rfl
      have hrest := ih [] (by simp)
      rw [List.nil_append] at hrest
      rw [htext, tokenize_append, List.map_append, List.map_map, hshift, hrest, hline start hstart,
        map_onLine_lineTokens, lineTokens_append_cons (by decide)]
    · have hnext := ih (start ++ [c]) (by simpa [hstart] using Ne.symm hc)
      simpa using hnext

theorem map_onLine_tokenize (source : String) :
    (tokenize source).map (Token.onLine 1) = lineTokens 1 source.toList := by
  simpa using map_onLine_tokenize_append [] source.toList (by simp)

theorem newline_not_mem_flatten (source : String) : '\n' ∉ (flatten source).toList := by
  intro h
  rw [flatten, String.toList_map] at h
  obtain ⟨c, -, hc⟩ := List.mem_map.1 h
  rw [flattenChar] at hc
  split at hc
  · next hsig =>
    rw [hc] at hsig
    exact absurd hsig (by decide)
  · exact absurd hc (by decide)

theorem tokenize_flatten (source : String) :
    tokenize (flatten source) = (tokenize source).map (Token.onLine 1) := by
  have hmap := lineTokens_map_flatten 1 [] source.toList
  rw [List.nil_append, List.nil_append] at hmap
  rw [map_onLine_tokenize, tokenize_of_not_mem (newline_not_mem_flatten source), flatten,
    String.toList_map, hmap]

/-! ### The stages behind scanning -/

/-- What becomes of a list of tokens, wherever it comes from. -/
def compileTokens (ts : List Token) : Except CompileError Compilation :=
  match parse ts with
  | .error e => .error (.malformed e)
  | .ok p =>
    match (SymbolTable.empty.analyze p.stmts).fault with
    | some e => .error (.misused e)
    | none => .ok ⟨ts, p, p.code, (SymbolTable.empty.analyze p.stmts).table⟩

theorem compile_eq_compileTokens (source : String) :
    compile source = compileTokens (tokenize source) :=
  compile_eq source

/-- The error with the token that it found changed. -/
def CompileError.mapFound (f : Token → Token) : CompileError → CompileError
  | malformed e => .malformed { e with found := e.found.map f }
  | misused e => .misused e

/-- If tokens are changed in their lines only, so is all that becomes of them. -/
theorem compileTokens_map {f : Token → Token} (h : Relabels f id) (ts : List Token) :
    compileTokens (ts.map f) =
      match compileTokens ts with
      | .ok out => .ok { out with tokens := out.tokens.map f }
      | .error e => .error (e.mapFound f) := by
  unfold compileTokens
  rw [h.parse]
  cases parse ts with
  | error e => rfl
  | ok p =>
    have hp : (⟨p.stmts.map (Stmt.rename id)⟩ : Program) = p := by simp
    simp only [hp]
    cases hfault : (SymbolTable.empty.analyze p.stmts).fault <;> simp [hfault, CompileError.mapFound]

/-- A text and its flattened form have the same lexemes in the same order, all on the first line in
the flattened form. Both are compiled to the same program, code and symbol table, or both are
rejected with the same error up to the line of the token found. -/
theorem compile_flatten (source : String) :
    (tokenize (flatten source)).map Token.lexeme = (tokenize source).map Token.lexeme ∧
      (∀ t ∈ tokenize (flatten source), t.line = 1) ∧
      compile (flatten source) =
        match compile source with
        | .ok out => .ok { out with tokens := out.tokens.map (Token.onLine 1) }
        | .error e => .error (e.mapFound (Token.onLine 1)) := by
  rw [compile_eq_compileTokens, compile_eq_compileTokens, tokenize_flatten]
  refine ⟨?_, ?_, compileTokens_map (relabels_onLine 1) _⟩
  · rw [List.map_map]
    rfl
  · intro t ht
    obtain ⟨u, -, rfl⟩ := List.mem_map.1 ht
    rfl

end ThreeAddress
