import ThreeAddress.Command.Execute
import ThreeAddress.Proofs.Layout
import ThreeAddress.Proofs.Reports

/-!
# Sources from the standard input

Lines from the standard input keep their endings and are joined by line feeds, so behind every line
but the last stands an empty one (`Text.lines_spread`). Such a source has the lexemes of the same
lines in a file, and line `n` of the file is its line `2 * n - 1` (`tokenize_spread`).

A `Response` is what the command answers with the numbers of source lines left open: they stand in
columns of their own, and everything else in it is fixed. The command fills in the numbers as they
are in the source, and for another text with the same lexemes it fills the same response with the
numbers that the lines have there (`Options.fill_response`).
-/

namespace ThreeAddress

/-! ### Texts by their lines -/

namespace Text

theorem rawLines_append_line {body : List Char} (h : '\n' ∉ body) (rest : List Char) :
    rawLines (body ++ '\n' :: rest) = (body ++ ['\n']) :: rawLines rest := by
  induction body with
  | nil => rfl
  | cons c body ih =>
    obtain ⟨hc, hbody⟩ : '\n' ≠ c ∧ '\n' ∉ body := by simpa using h
    rw [List.cons_append, rawLines_cons, ih hbody, consLine_of_ne (Ne.symm hc)]
    rfl

/-- A text is empty, a line without ending, or a line with its ending in front of a text. -/
@[elab_as_elim] theorem line_induction {motive : List Char → Prop} (s : List Char)
    (nil : motive []) (last : ∀ s, s ≠ [] → '\n' ∉ s → motive s)
    (line : ∀ body rest, '\n' ∉ body → motive rest → motive (body ++ '\n' :: rest)) :
    motive s := by
  by_cases h : '\n' ∈ s
  · obtain ⟨body, rest, hs, hbody⟩ := List.eq_append_cons_of_mem h
    have hshorter : rest.length < s.length := by
      rw [hs, List.length_append, List.length_cons]
      omega
    rw [hs]
    exact line body rest hbody (line_induction rest nil last line)
  · by_cases hs : s = []
    · exact hs ▸ nil
    · exact last s hs h
termination_by s.length
decreasing_by exact hshorter

/-- The lines in front of a place are the lines of the text that ends there. -/
theorem rawLines_takeWhile (p : List Char → Bool) (s : List Char) :
    rawLines ((rawLines s).takeWhile p).flatten = (rawLines s).takeWhile p := by
  induction s using line_induction with
  | nil => rfl
  | last s hs h =>
    rw [rawLines_of_not_mem h hs, List.takeWhile_cons, List.takeWhile_nil]
    split
    · simpa using rawLines_of_not_mem h hs
    · rfl
  | line body rest h ih =>
    rw [rawLines_append_line h, List.takeWhile_cons]
    split
    · have hjoin : ((body ++ ['\n']) :: (rawLines rest).takeWhile p).flatten =
          body ++ '\n' :: ((rawLines rest).takeWhile p).flatten := by simp
      rw [hjoin, rawLines_append_line h, ih]
    · rfl

/-- The lines of a text with their endings, joined by further line feeds. -/
def spread (s : List Char) : List Char :=
  ['\n'].intercalate (rawLines s)

theorem rawLines_spread (s : List Char) :
    rawLines (spread s) = (rawLines s).intersperse ['\n'] := by
  induction s using line_induction with
  | nil => rfl
  | last s hs h =>
    rw [spread, rawLines_of_not_mem h hs, List.intercalate_singleton, List.intersperse_singleton,
      rawLines_of_not_mem h hs]
  | line body rest h ih =>
    rw [spread, rawLines_append_line h]
    cases hrest : rawLines rest with
    | nil => simpa using rawLines_append_line h []
    | cons line lines =>
      rw [spread, hrest] at ih
      have hjoin : ['\n'].intercalate ((body ++ ['\n']) :: line :: lines) =
          body ++ '\n' :: ([] ++ '\n' :: ['\n'].intercalate (line :: lines)) := by
        simp [List.intercalate_cons_cons]
      rw [hjoin, rawLines_append_line h, rawLines_append_line (by simp), ih,
        List.intersperse_cons_cons]
      rfl

theorem map_intersperse {α β : Type} (f : α → β) (sep : α) (xs : List α) :
    (xs.intersperse sep).map f = (xs.map f).intersperse (f sep) := by
  induction xs with
  | nil => rfl
  | cons x xs ih =>
    cases xs with
    | nil => rfl
    | cons y xs =>
      rw [List.intersperse_cons_cons, List.map_cons, List.map_cons, ih]
      rfl

theorem lines_spread (s : List Char) : lines (spread s) = (lines s).intersperse [] := by
  rw [lines, rawLines_spread, map_intersperse]
  rfl

end Text

/-! ### Tokens -/

/-- The token on another line, which depends on its own. -/
def Token.renumber (number : Nat → Nat) (t : Token) : Token :=
  { t with line := number t.line }

theorem relabels_renumber (number : Nat → Nat) : Relabels (Token.renumber number) id :=
  ⟨fun _ => rfl, fun _ _ => rfl, fun _ _ => rfl⟩

theorem map_renumber_lineTokens (number : Nat → Nat) (n : Nat) (line : List Char) :
    (lineTokens n line).map (Token.renumber number) = lineTokens (number n) line := by
  unfold lineTokens
  rw [List.map_filterMap]
  congr 1
  funext segment
  cases segment <;> rfl

theorem linesTokens_cons (first : Nat) (line : List Char) (lines : List (List Char)) :
    linesTokens first (line :: lines) =
      lineTokens first line ++ linesTokens (first + 1) lines := by
  rw [← List.singleton_append, linesTokens_append, linesTokens_singleton]
  rfl

theorem linesTokens_intersperse (k : Nat) (lines : List (List Char)) :
    linesTokens (2 * k + 1) (lines.intersperse []) =
      (linesTokens (k + 1) lines).map (Token.renumber fun n => 2 * n - 1) := by
  induction lines generalizing k with
  | nil => rfl
  | cons line lines ih =>
    have hline : lineTokens (2 * k + 1) line =
        (lineTokens (k + 1) line).map (Token.renumber fun n => 2 * n - 1) := by
      rw [map_renumber_lineTokens]
      rfl
    cases lines with
    | nil => rw [List.intersperse_singleton, linesTokens_singleton, linesTokens_singleton, hline]
    | cons next lines =>
      rw [List.intersperse_cons_cons, linesTokens_cons, linesTokens_cons, lineTokens_nil,
        List.nil_append, linesTokens_cons, List.map_append, hline]
      exact congrArg _ (ih (k + 1))

theorem tokenize_spread (source : String) :
    tokenize (String.ofList (Text.spread source.toList)) =
      (tokenize source).map (Token.renumber fun n => 2 * n - 1) := by
  rw [tokenize_eq, tokenize_eq, String.toList_ofList, Text.lines_spread]
  exact linesTokens_intersperse 0 _

/-! ### Responses -/

/-- A piece of what the command writes: a fixed text, or the number of a source line. -/
inductive Piece
  | text (s : String)
  | line (n : Nat)
deriving Repr, DecidableEq

/-- The piece with line number `n` shown as `number n`, in a column. -/
def Piece.fill (number : Nat → Nat) : Piece → String
  | text s => s
  | line n => Text.column (number n)

def fillPieces (number : Nat → Nat) (pieces : List Piece) : String :=
  String.join (pieces.map (Piece.fill number))

/-- A token in the list of tokens, its line left open. -/
def Token.pieces (t : Token) : List Piece :=
  [.line t.line, .text (": " ++ t.render ++ "\n")]

/-- The output of a compilation: only the list of tokens shows line numbers. -/
def Options.pieces (o : Options) (c : Compilation) : List Piece :=
  (if o.shows .tokens then .text "== Tokens\n" :: c.tokens.flatMap Token.pieces else []) ++
    [.text (o.part .ast "== AST" c.program.tree),
      .text ("== Intermediate code\n" ++ Text.unlines c.codeLines),
      .text (o.part .symbols "== Symbols" c.symbols.render)]

/-- The report of an error: only the quoted line shows its number. -/
def CompileError.pieces (source : String) (e : CompileError) : List Piece :=
  let quoted := e.line?.bind fun number =>
    (Text.lines source.toList)[number - 1]?.map fun line =>
      [.text "\n", .line number, .text (" | " ++ String.ofList (Text.trimEnd line))]
  .text e.header :: quoted.getD []

/-- What the command writes and its exit code, the line numbers left open. -/
structure Response where
  stdout : List Piece
  stderr : List Piece
  code : Nat
deriving Repr, DecidableEq

namespace Response

def fill (number : Nat → Nat) (r : Response) : Outcome :=
  ⟨fillPieces number r.stdout, fillPieces number r.stderr, r.code⟩

/-- The line numbers that are left open. -/
def lineNumbers (r : Response) : List Nat :=
  (r.stdout ++ r.stderr).filterMap fun
    | .text _ => none
    | .line n => some n

end Response

/-- The response to a source text. -/
def Options.response (o : Options) (source : String) : Response :=
  match ThreeAddress.compile source with
  | .ok c => ⟨o.pieces c, [], 0⟩
  | .error e => ⟨[], e.pieces source ++ [.text "\n"], 1⟩

section

variable {number : Nat → Nat}

theorem fillPieces_cons (piece : Piece) (pieces : List Piece) :
    fillPieces number (piece :: pieces) = piece.fill number ++ fillPieces number pieces := by
  simp [fillPieces]

theorem fillPieces_append (pieces more : List Piece) :
    fillPieces number (pieces ++ more) = fillPieces number pieces ++ fillPieces number more := by
  simp [fillPieces]

theorem fillPieces_tokens (ts : List Token) :
    fillPieces number (ts.flatMap Token.pieces) =
      Text.unlines ((ts.map (Token.renumber number)).map Token.listed) := by
  induction ts with
  | nil => rfl
  | cons t ts ih =>
    rw [List.flatMap_cons, fillPieces_append, ih]
    simp [fillPieces, Token.pieces, Piece.fill, Text.unlines, Token.listed, Token.renumber,
      Token.render, String.append_assoc]

theorem Options.fill_pieces (o : Options) (c : Compilation) :
    fillPieces number (o.pieces c) =
      o.output { c with tokens := c.tokens.map (Token.renumber number) } := by
  have htokens : fillPieces number
      (if o.shows .tokens then .text "== Tokens\n" :: c.tokens.flatMap Token.pieces else []) =
        o.part .tokens "== Tokens"
          (Text.unlines ((c.tokens.map (Token.renumber number)).map Token.listed)) := by
    rw [Options.part]
    split
    · rw [fillPieces_cons, fillPieces_tokens]
      rfl
    · rfl
  rw [Options.pieces, fillPieces_append, htokens, Options.output]
  simp [fillPieces, Piece.fill, Compilation.codeLines, String.append_assoc]

theorem CompileError.header_mapFound (e : CompileError) (number : Nat → Nat) :
    (e.mapFound (Token.renumber number)).header = e.header := by
  cases e with
  | malformed s =>
    obtain ⟨pos, found, expected⟩ := s
    cases found <;> rfl
  | misused s => rfl

theorem CompileError.line?_mapFound (e : CompileError) (number : Nat → Nat) :
    (e.mapFound (Token.renumber number)).line? = e.line?.map number := by
  cases e with
  | malformed s =>
    obtain ⟨pos, found, expected⟩ := s
    cases found <;> rfl
  | misused s => rfl

/-- The report of the same error against another text that has the quoted line elsewhere. -/
theorem CompileError.fill_pieces (e : CompileError) {source source' : String}
    (hlines : ∀ n, (Text.lines source'.toList)[number n - 1]? =
      (Text.lines source.toList)[n - 1]?) :
    fillPieces number (e.pieces source) = (e.mapFound (Token.renumber number)).report source' := by
  have hreport : (e.mapFound (Token.renumber number)).report source' =
      e.header ++ ((e.line?.map number).bind fun n => (Text.lines source'.toList)[n - 1]?.map
        (quotedLine n)).elim "" ("\n" ++ ·) := by
    rw [← e.header_mapFound number, ← e.line?_mapFound number, header, report]
  rw [hreport, pieces, fillPieces_cons, Piece.fill]
  cases e.line? with
  | none => simp [fillPieces]
  | some n =>
    simp only [Option.map_some, Option.bind_some, hlines]
    cases (Text.lines source.toList)[n - 1]? with
    | none => simp [fillPieces]
    | some line => simp [fillPieces, Piece.fill, quotedLine, String.append_assoc]

/-- The response to a text, filled with the numbers that its lines have in another text, is what the
command answers to the other text. -/
theorem Options.fill_response (o : Options) {source source' : String}
    (htokens : tokenize source' = (tokenize source).map (Token.renumber number))
    (hlines : ∀ n, (Text.lines source'.toList)[number n - 1]? =
      (Text.lines source.toList)[n - 1]?) :
    (o.response source).fill number = o.compile source' := by
  have hcompile : ThreeAddress.compile source' =
      match ThreeAddress.compile source with
      | .ok c => .ok { c with tokens := c.tokens.map (Token.renumber number) }
      | .error e => .error (e.mapFound (Token.renumber number)) := by
    rw [compile_eq_compileTokens source', compile_eq_compileTokens source, htokens]
    exact compileTokens_map (relabels_renumber number) _
  rw [Options.response, Options.compile, hcompile]
  cases ThreeAddress.compile source with
  | ok c => exact congrArg Outcome.success (o.fill_pieces c)
  | error e =>
    rw [Response.fill, fillPieces_append, e.fill_pieces hlines]
    rfl

end

/-! ### The line numbers of a response -/

theorem Options.exists_token_of_mem_pieces {o : Options} {c : Compilation} {n : Nat}
    (h : .line n ∈ o.pieces c) : ∃ t ∈ c.tokens, t.line = n := by
  rw [Options.pieces] at h
  rcases List.mem_append.1 h with h | h
  · split at h
    · rcases List.mem_cons.1 h with h | h
      · cases h
      · obtain ⟨t, ht, hmem⟩ := List.mem_flatMap.1 h
        exact ⟨t, ht, by simpa [Token.pieces, eq_comm] using hmem⟩
    · cases h
  · simp at h

theorem CompileError.line?_of_mem_pieces {e : CompileError} {source : String} {n : Nat}
    (h : .line n ∈ e.pieces source) : e.line? = some n := by
  rw [pieces] at h
  cases hline : e.line? with
  | none => simp [hline] at h
  | some k =>
    cases hat : (Text.lines source.toList)[k - 1]? with
    | none => simp [hline, hat] at h
    | some line =>
      have hk : n = k := by simpa [hline, hat] using h
      rw [hk]

theorem CompileError.found?_of_line? {e : CompileError} {n : Nat} (h : e.line? = some n) :
    ∃ t, e.found? = some t ∧ t.line = n := by
  cases e with
  | malformed s => exact Option.map_eq_some_iff.1 h
  | misused s => cases h

/-- The numbers in a response to a text are numbers of lines of the text. -/
theorem Options.lineNumbers_response {o : Options} {source : String} {n : Nat}
    (h : n ∈ (o.response source).lineNumbers) :
    1 ≤ n ∧ n ≤ (Text.lines source.toList).length := by
  obtain ⟨t, ht, rfl⟩ : ∃ t ∈ tokenize source, t.line = n := by
    have hmem : .line n ∈ (o.response source).stdout ++ (o.response source).stderr := by
      obtain ⟨piece, hpiece, hn⟩ := List.mem_filterMap.1 h
      cases piece with
      | text s => cases hn
      | line k =>
        cases hn
        exact hpiece
    rw [Options.response] at hmem
    cases hcompile : ThreeAddress.compile source with
    | ok c =>
      have htokens : c.tokens = tokenize source := by
        obtain ⟨p, -, -, rfl⟩ := compile_eq_ok_iff.1 hcompile
        rfl
      rw [hcompile] at hmem
      rw [← htokens]
      exact exists_token_of_mem_pieces (by simpa using hmem : .line n ∈ o.pieces c)
    | error e =>
      rw [hcompile] at hmem
      obtain ⟨t, ht, hline⟩ := CompileError.found?_of_line?
        (CompileError.line?_of_mem_pieces (by simpa using hmem : .line n ∈ e.pieces source))
      exact ⟨t, found?_mem_tokenize hcompile ht, hline⟩
  obtain ⟨hfirst, line, hline, -⟩ := exists_line_of_mem_tokenize ht
  have hlast := (List.getElem?_eq_some_iff.1 hline).1
  exact ⟨hfirst, by omega⟩

/-! ### Standard input and files -/

/-- The lines of the standard input before the first blank one, with their endings. -/
def typedText (stdin : String) : String :=
  String.ofList ((Text.rawLines stdin.toList).takeWhile fun line => !line.all Text.isBlank).flatten

theorem promptedSource_eq (stdin : String) :
    promptedSource stdin = String.ofList (Text.spread (typedText stdin).toList) := by
  rw [← String.toList_inj, String.toList_ofList, Text.spread, typedText, String.toList_ofList,
    Text.rawLines_takeWhile, promptedSource, String.toList_intercalate, List.map_map]
  simp [Function.comp_def]

theorem decodeText_toUTF8 (s : String) : decodeText s.toUTF8 = .ok s := by
  have hvalid : s.toUTF8.IsValidUTF8 := s.isValidUTF8
  rw [decodeText, String.fromUTF8?, dif_pos hvalid]
  rfl

/-- A file that holds the lines of the standard input before the first blank one, with their
endings, gives the response that the standard input gives, up to the numbers of source lines, in
the list of tokens and in the report of an error: line `n` of the file is line `2 * n - 1` there. -/
theorem piped_input_agrees_with_file (flags : List Flag)
    {files files' : String → Except ReadError ByteArray} {file stdin stdin' : String}
    (hfile : files file = .ok (typedText stdin).toUTF8) :
    let response := Options.response ⟨none, flags⟩ (typedText stdin)
    Options.execute ⟨some file, flags⟩ files stdin' = response.fill id ∧
      Options.execute ⟨none, flags⟩ files' stdin = response.fill (fun n => 2 * n - 1) ∧
      ∀ n ∈ response.lineNumbers, 1 ≤ n ∧ n ≤ (Text.lines (typedText stdin).toList).length := by
  intro response
  refine ⟨?_, ?_, fun n => Options.lineNumbers_response⟩
  · have hread : (files file).bind decodeText = .ok (typedText stdin) := by
      simp only [hfile, Except.bind, decodeText_toUTF8]
    have htokens : tokenize (typedText stdin) =
        (tokenize (typedText stdin)).map (Token.renumber id) :=
      (List.map_id _).symm
    simp only [Options.execute, hread]
    exact (Options.fill_response _ htokens fun _ => rfl).symm
  · have hlines : ∀ n, (Text.lines (promptedSource stdin).toList)[2 * n - 1 - 1]? =
        (Text.lines (typedText stdin).toList)[n - 1]? := by
      intro n
      have hindex : 2 * n - 1 - 1 = 2 * (n - 1) := by omega
      rw [promptedSource_eq, String.toList_ofList, Text.lines_spread, hindex,
        List.getElem?_intersperse_two_mul]
    have htokens : tokenize (promptedSource stdin) =
        (tokenize (typedText stdin)).map (Token.renumber fun n => 2 * n - 1) := by
      rw [promptedSource_eq, tokenize_spread]
    exact (Options.fill_response _ htokens hlines).symm

/-- An error on the second line, in front of a blank one. -/
theorem piped_input_agrees_with_file_second_line :
    let stdin := "int a;\r\nint = 3;\n \nprint a;\n"
    let files : String → Except ReadError ByteArray := fun _ => .ok (typedText stdin).toUTF8
    let report (quoted : String) := Outcome.failure
      ("SyntaxError: Syntax error: Expect variable name. Found ASSIGNMENT '=' at token 4.\n" ++
        quoted)
    typedText stdin = "int a;\r\nint = 3;\n" ∧
      Options.execute ⟨some "a.txt", [.tokens]⟩ files "" = report "   2 | int = 3;" ∧
      Options.execute ⟨none, [.tokens]⟩ files stdin = report "   3 | int = 3;" := by
  intro stdin files report
  have hread : files "a.txt" = .ok (typedText stdin).toUTF8 := rfl
  obtain ⟨hfile, hpiped, -⟩ : Options.execute ⟨some "a.txt", [.tokens]⟩ files "" = _ ∧
      Options.execute ⟨none, [.tokens]⟩ files stdin = _ ∧ _ :=
    piped_input_agrees_with_file [.tokens] hread
  refine ⟨by decide +kernel, hfile.trans ?_, hpiped.trans ?_⟩
  · decide +kernel
  · decide +kernel

end ThreeAddress
