import ThreeAddress.Compile
import ThreeAddress.Proofs.Initialization
import ThreeAddress.Proofs.LongestMatch
import ThreeAddress.Proofs.Lookahead
import ThreeAddress.Proofs.Spelling

/-!
# Reports

The report of an error is its header, the kind of error and the message, and below it the line of
the token that was found, if one was. Every token of a text stands on a line of the text
(`exists_line_of_mem_tokenize`), and it has no blanks in it, so it is not lost when the blanks at
the end of the line are (`Text.infix_trimEnd`). The header is a single line: the names in an error
are names of the program (`SymbolTable.about_of_fault`), and these have no line feeds.
-/

namespace ThreeAddress

/-! ### Lines without the blanks at their end -/

namespace Text

/-- Trimming takes off blanks only, and all that stand at the end. -/
theorem exists_trimEnd_append (line : List Char) :
    ∃ blanks, line = trimEnd line ++ blanks ∧ (∀ c ∈ blanks, isBlank c = true) ∧
      ∀ c ∈ (trimEnd line).getLast?, isBlank c = false := by
  refine ⟨(line.reverse.takeWhile isBlank).reverse, ?_, ?_, ?_⟩
  · rw [trimEnd, ← List.reverse_append, List.takeWhile_append_dropWhile, List.reverse_reverse]
  · intro c hc
    exact List.all_eq_true.1 List.all_takeWhile c (List.mem_reverse.1 hc)
  · intro c hc
    have hhead := List.head?_dropWhile_not isBlank line.reverse
    rw [trimEnd, List.getLast?_reverse] at hc
    rw [Option.mem_def.1 hc] at hhead
    exact hhead

theorem trimEnd_append {start : List Char} {c : Char} (hc : isBlank c = false)
    (rest : List Char) : trimEnd (start ++ c :: rest) = start ++ c :: trimEnd rest := by
  have hstop : (c :: start.reverse).dropWhile isBlank = c :: start.reverse := by
    simp [hc]
  have hrev : (start ++ c :: rest).reverse = rest.reverse ++ c :: start.reverse := by simp
  rw [trimEnd, trimEnd, hrev, List.dropWhile_append, hstop]
  split
  · next hempty => simp [List.isEmpty_iff.1 hempty]
  · simp

/-- A part of a line that has no blanks in it is a part of the trimmed line. -/
theorem infix_trimEnd {word line : List Char} (h : word <:+: line)
    (hword : ∀ c ∈ word, isBlank c = false) : word <:+: trimEnd line := by
  obtain ⟨before, after, rfl⟩ := h
  rcases List.eq_nil_or_concat word with rfl | ⟨start, c, rfl⟩
  · exact List.nil_infix
  · have hc : isBlank c = false := hword c (by simp)
    have hline : before ++ (start ++ [c]) ++ after = before ++ start ++ c :: after := by simp
    rw [List.concat_eq_append, hline, trimEnd_append hc]
    exact ⟨before, trimEnd after, by simp⟩

end Text

/-! ### The line of a token -/

theorem toNat_of_isAlpha {c : Char} (h : c.isAlpha = true) :
    'A'.toNat ≤ c.toNat ∧ c.toNat ≤ 'z'.toNat := by
  refine ⟨le_toNat_of_isAlpha h, ?_⟩
  rcases Bool.or_eq_true_iff.1 h with h | h
  · have hcase : 'Z'.val ≤ 'z'.val := by decide
    exact UInt32.le_iff_toNat_le.1 (UInt32.le_trans (of_decide_eq_true h).2 hcase)
  · exact UInt32.le_iff_toNat_le.1 (of_decide_eq_true (Bool.and_eq_true_iff.1 h).2)

/-- The characters of lexemes are printed characters of ASCII. -/
theorem toNat_of_isLexical {c : Char} (h : isLexical c = true) :
    '('.toNat ≤ c.toNat ∧ c.toNat ≤ 'z'.toNat := by
  have hcases : (((c.isAlpha = true ∨ c.isDigit = true) ∨ c = '_') ∨ c = '.') ∨
      (punctuation? c).isSome = true := by
    simpa [isLexical, isWordPart, Char.isAlphanum] using h
  rcases hcases with (((h | h) | rfl) | rfl) | h
  · have hbounds := toNat_of_isAlpha h
    exact ⟨Nat.le_trans (by decide) hbounds.1, hbounds.2⟩
  · have hbounds := Char.isDigit_iff_toNat.1 h
    exact ⟨Nat.le_trans (by decide) hbounds.1, Nat.le_trans hbounds.2 (by decide)⟩
  · decide
  · decide
  · rcases isSome_punctuation?_iff.1 h with rfl | (rfl | rfl | rfl | rfl) | rfl | rfl | rfl <;>
      decide

theorem not_isBlank_of_isLexical {c : Char} (h : isLexical c = true) :
    Text.isBlank c = false := by
  have hbounds : 40 ≤ c.toNat ∧ c.toNat ≤ 122 := toNat_of_isLexical h
  simp only [Text.isBlank, Bool.or_eq_false_iff, Bool.and_eq_false_iff, decide_eq_false_iff_not,
    beq_eq_false_iff_ne]
  omega

theorem infix_of_mem_scanLine {line : List Char} {segment : Segment}
    (h : segment ∈ scanLine line) : segment.chars <:+: line := by
  obtain ⟨before, after, hscan⟩ := List.append_of_mem h
  refine ⟨before.flatMap Segment.chars, after.flatMap Segment.chars, ?_⟩
  rw [← flatMap_chars_scanLine line, hscan, List.flatMap_append, List.flatMap_cons,
    List.append_assoc]

/-- The line that a token is on is a line of the text, and the token is a part of it. -/
theorem exists_line_of_mem_tokenize {source : String} {t : Token} (h : t ∈ tokenize source) :
    1 ≤ t.line ∧ ∃ line, (Text.lines source.toList)[t.line - 1]? = some line ∧
      t.text.toList <:+: line := by
  rw [tokenize_eq] at h
  obtain ⟨⟨line, number⟩, hline, ht⟩ := List.mem_flatMap.1 h
  obtain ⟨segment, hsegment, htoken⟩ := List.mem_filterMap.1 ht
  obtain ⟨hfirst, hlast, hat⟩ := List.mem_zipIdx hline
  have hinfix := infix_of_mem_scanLine hsegment
  cases segment with
  | skipped c => cases htoken
  | lexeme kind text =>
    cases htoken
    refine ⟨hfirst, line, ?_, by simpa [Segment.chars] using hinfix⟩
    rw [hat]
    exact List.getElem?_eq_getElem _

theorem not_isBlank_of_mem_text {source : String} {t : Token} (h : t ∈ tokenize source) :
    ∀ c ∈ t.text.toList, Text.isBlank c = false := by
  intro c hc
  exact not_isBlank_of_isLexical ((matches_of_mem_tokenize h).isLexical hc)

/-! ### The names in errors -/

/-- The error is about a name that satisfies `P`, and any operator in it is one of the language. -/
def SemanticError.About (P : String → Prop) : SemanticError → Prop
  | alreadyDeclared name | undeclared name => P name
  | uninitializedOperand operand op => P operand ∧ ∃ o : BinOp, op = o.symbol

namespace SymbolTable

variable {number name : String → Prop} {t : SymbolTable} {err : SemanticError}

theorem about_of_evaluate {e : Expr} (he : e.Texts number name)
    (h : t.evaluate e = .error err) : err.About name := by
  induction e with
  | number text => cases h
  | identifier x =>
    rw [evaluate] at h
    split at h
    · cases h
    · cases h; exact he
  | binary op left right ihl ihr =>
    rw [evaluate] at h
    cases hl : t.evaluate left with
    | error f =>
      rw [hl] at h
      cases h
      exact ihl he.1 hl
    | ok l =>
    cases hr : t.evaluate right with
    | error f =>
      rw [hl, hr] at h
      cases h
      exact ihr he.2 hr
    | ok r =>
    rw [hl, hr] at h
    replace h : Value.combine op left right l r = .error err := h
    unfold Value.combine at h
    split at h
    · cases h
    · next hnone =>
      cases h
      obtain ⟨x, rfl⟩ := exists_name_of_evaluate hl hnone
      exact ⟨he.1, op, rfl⟩
    · next hnone =>
      cases h
      obtain ⟨x, rfl⟩ := exists_name_of_evaluate hr hnone
      exact ⟨he.2, op, rfl⟩

theorem map_eq_error_iff {ε α β : Type} {f : α → β} {r : Except ε α} {e : ε} :
    r.map f = .error e ↔ r = .error e := by
  cases r <;> simp [Except.map]

theorem about_of_check {s : Stmt} (hs : s.Texts number name) (h : t.check s = .error err) :
    err.About name := by
  cases s with
  | declaration ty x init =>
    simp only [check] at h
    split at h
    · cases h; exact hs.1
    cases init with
    | none => cases h
    | some e => exact about_of_evaluate (hs.2 e rfl) (map_eq_error_iff.1 h)
  | assignment x e =>
    rw [check] at h
    split at h
    · exact about_of_evaluate hs.2 (map_eq_error_iff.1 h)
    · cases h; exact hs.1
  | print x =>
    rw [check] at h
    split at h
    · cases h
    · cases h; exact hs

/-- The fault of a program is about one of its names. -/
theorem about_of_fault {stmts : List Stmt} (hstmts : ∀ s ∈ stmts, s.Texts number name)
    (h : (t.analyze stmts).fault = some err) : err.About name := by
  induction stmts generalizing t with
  | nil => cases h
  | cons s rest ih =>
    rw [analyze] at h
    cases hs : t.check s with
    | error f =>
      rw [hs] at h
      cases h
      exact about_of_check (hstmts s (by simp)) hs
    | ok effect =>
      rw [hs] at h
      exact ih (fun s' hs' => hstmts s' (by simp [hs'])) h

end SymbolTable

/-! ### Headers -/

/-- The first line of a report: the kind of error and its message. -/
def CompileError.header (e : CompileError) : String :=
  e.label ++ ": " ++ e.message

/-- The token that an error in the form of a text found, if it is not at the end of the text. -/
def CompileError.found? : CompileError → Option Token
  | malformed e => e.found
  | misused _ => none

theorem isLine_render_token {t : Token} (h : t.Matches) : Text.IsLine t.render := by
  have hnewline : isLexical '\n' = false := by decide
  have htext : Text.IsLine t.text := Token.Kind.Matches.not_mem h hnewline
  have hlabel : Text.IsLine t.kind.label := by cases t.kind <;> decide
  exact ((hlabel.append (by decide)).append htext).append (by decide)

theorem isLine_message_of_parse {source : String} {e : SyntaxError}
    (h : parse (tokenize source) = .error e) : Text.IsLine e.message := by
  obtain ⟨before, f, htokens, -, rfl⟩ := parse_eq_error_iff.1 h
  have hexpected : Text.IsLine f.expected.message := by cases f.expected <;> decide
  have hfound : Text.IsLine (f.rest.head?.elim "end of input" Token.render) := by
    cases hrest : f.rest with
    | nil => decide
    | cons t rest =>
      have ht : t ∈ tokenize source := by simp [htokens, hrest]
      exact isLine_render_token (matches_of_mem_tokenize ht)
  have hplace := (hexpected.append (by decide : Text.IsLine " Found ")).append hfound
  exact ((hplace.append (by decide)).append (Text.isLine_repr _)).append (by decide)

theorem SemanticError.About.isLine_message {e : SemanticError} (h : e.About Text.IsLine) :
    Text.IsLine e.message := by
  cases e with
  | alreadyDeclared x | undeclared x =>
    have hx : Text.IsLine x := h
    exact ((by decide : Text.IsLine "Variable '").append hx).append (by decide)
  | uninitializedOperand x op =>
    obtain ⟨hx, o, rfl⟩ := h
    have ho : Text.IsLine o.symbol := by cases o <;> decide
    have hoperand := (by decide : Text.IsLine "Operand '").append hx
    exact ((hoperand.append (by decide)).append ho).append (by decide)

theorem isLine_header_of_compile {source : String} {e : CompileError}
    (h : compile source = .error e) : Text.IsLine e.header := by
  rcases compile_eq_error_iff.1 h with ⟨s, hs, rfl⟩ | ⟨p, s, hp, hfault, rfl⟩
  · have hmessage := (by decide : Text.IsLine "Syntax error: ").append (isLine_message_of_parse hs)
    exact (by decide : Text.IsLine "SyntaxError: ").append hmessage
  · have hnewline : isLexical '\n' = false := by decide
    have hnames : ∀ s ∈ p.stmts, s.Texts IsNumeral Text.IsLine :=
      texts_of_parse hp fun t ht => (matches_of_mem_tokenize ht).texts (fun _ hx => hx)
        fun x hx => Token.Kind.Matches.not_mem hx hnewline
    have habout := SymbolTable.about_of_fault hnames hfault
    have hmessage := (by decide : Text.IsLine "Semantic error: ").append habout.isLine_message
    have hlabel : Text.IsLine s.label := by unfold SemanticError.label; split <;> decide
    exact (hlabel.append (by decide)).append hmessage

/-! ### Quoted lines -/

theorem found?_mem_tokenize {source : String} {e : CompileError} {t : Token}
    (h : compile source = .error e) (ht : e.found? = some t) : t ∈ tokenize source := by
  rcases compile_eq_error_iff.1 h with ⟨s, hs, rfl⟩ | ⟨p, s, -, -, rfl⟩
  · obtain ⟨before, f, htokens, -, rfl⟩ := parse_eq_error_iff.1 hs
    obtain ⟨rest, hrest⟩ := List.head?_eq_some_iff.1 ht
    simp [htokens, hrest]
  · cases ht

theorem CompileError.report_of_found {source : String} {e : CompileError} {t : Token}
    {line : List Char} (ht : e.found? = some t)
    (hline : (Text.lines source.toList)[t.line - 1]? = some line) :
    e.report source = e.header ++ "\n" ++ quotedLine t.line line := by
  cases e with
  | malformed s =>
    have hs : s.line? = some t.line := by simpa [SyntaxError.line?] using ⟨t, ht, rfl⟩
    simp [report, header, line?, hs, hline, String.append_assoc]
  | misused s => cases ht

theorem CompileError.report_of_not_found {e : CompileError} (h : e.found? = none)
    (source : String) : e.report source = e.header := by
  cases e with
  | malformed s =>
    have hs : s.line? = none := by simpa [SyntaxError.line?, found?] using h
    simp [report, header, line?, hs]
  | misused s => simp [report, header, line?]

theorem Text.column_eq (n : Nat) :
    column n = String.ofList (List.replicate (4 - (Nat.repr n).length) ' ') ++ Nat.repr n := by
  rw [column, List.leftpad, String.ofList_append, String.ofList_toList, String.length_toList]

/-- The report of a text that is rejected. Its header is one line. If parsing found a token, then
the token is on a line of the text, and the report is the header and below it the number of the
line, flush right in four columns, and the line without the blanks at its end, which contains the
token. In all other cases the report is the header. -/
theorem report_quotes_offending_line {source : String} {e : CompileError}
    (h : compile source = .error e) :
    '\n' ∉ e.header.toList ∧
      (∀ t, e.found? = some t →
        1 ≤ t.line ∧ t.line ≤ (Text.lines source.toList).length ∧
        ∃ line shown blanks, (Text.lines source.toList)[t.line - 1]? = some line ∧
          line = shown ++ blanks ∧ (∀ c ∈ blanks, Text.isBlank c = true) ∧
          (∀ c ∈ shown.getLast?, Text.isBlank c = false) ∧ t.text.toList <:+: shown ∧
          e.report source = e.header ++ "\n" ++
            (String.ofList (List.replicate (4 - (Nat.repr t.line).length) ' ') ++
              Nat.repr t.line) ++ " | " ++ String.ofList shown) ∧
      (e.found? = none → e.report source = e.header) := by
  refine ⟨isLine_header_of_compile h, fun t ht => ?_, fun hnone =>
    CompileError.report_of_not_found hnone source⟩
  have hmem := found?_mem_tokenize h ht
  obtain ⟨hfirst, line, hline, htext⟩ := exists_line_of_mem_tokenize hmem
  obtain ⟨blanks, hsplit, hblanks, hshown⟩ := Text.exists_trimEnd_append line
  have hlast : t.line - 1 < (Text.lines source.toList).length :=
    (List.getElem?_eq_some_iff.1 hline).1
  refine ⟨hfirst, by omega, line, Text.trimEnd line, blanks, hline, hsplit, hblanks, hshown,
    Text.infix_trimEnd htext (not_isBlank_of_mem_text hmem), ?_⟩
  rw [CompileError.report_of_found ht hline, CompileError.quotedLine, Text.column_eq]
  simp only [String.append_assoc]

/-- Line endings of two characters, an empty line, and a blank outside of ASCII at the end of the
third line, which the report quotes; and a report without a line. -/
theorem report_quotes_offending_line_third :
    let source := "int a;\r\n\r\n\tfloat = 2; \u00a0\r\nprint a;"
    (∃ e t, compile source = .error e ∧ e.found? = some t ∧
      (1 ≤ t.line ∧ t.line ≤ (Text.lines source.toList).length ∧
        ∃ shown, t.text.toList <:+: shown ∧
          e.report source = e.header ++ "\n" ++ ("   " ++ "3") ++ " | " ++ String.ofList shown) ∧
      e.report source = "SyntaxError: Syntax error: Expect variable name. " ++
        "Found ASSIGNMENT '=' at token 4.\n   3 | \tfloat = 2;") ∧
    ∃ e, compile "int a" = .error e ∧ e.report "int a" = e.header := by
  intro source
  constructor
  · have hcompile : compile source = .error (.malformed
        ⟨4, some ⟨.assignment, "=", 3⟩, "Expect variable name."⟩) :=
      compile_eq_error_iff.2 (.inl ⟨_, by decide +kernel, rfl⟩)
    obtain ⟨hfirst, hlast, _, shown, _, _, _, _, _, htext, hreport⟩ :=
      (report_quotes_offending_line hcompile).2.1 _ rfl
    exact ⟨_, _, hcompile, rfl, ⟨hfirst, hlast, shown, htext, hreport⟩, by decide +kernel⟩
  · have hcompile : compile "int a" = .error (.malformed
        ⟨2, none, "Expect ';' after variable declaration."⟩) :=
      compile_eq_error_iff.2 (.inl ⟨_, by decide +kernel, rfl⟩)
    exact ⟨_, hcompile, (report_quotes_offending_line hcompile).2.2 rfl⟩

end ThreeAddress
