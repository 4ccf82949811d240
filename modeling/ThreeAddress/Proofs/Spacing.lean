import ThreeAddress.Proofs.Layout
import ThreeAddress.Proofs.Reports

/-!
# Lexemes with gaps between them

Scanning undoes the writing of lexemes: put blanks between them, in one line or over many, and
scanning the text gives them back (`map_lexeme_tokenize_weave`). A gap ends the lexeme in front of
it and adds nothing (`lineTokens_append_gap`). Since every token of a text matches the pattern of
its category, the lists of lexemes that scanning can give are exactly the lists of such lexemes.
-/

namespace ThreeAddress

/-! ### Gaps -/

namespace Text

/-- At least one blank, and nothing else. A line feed is a blank, a carriage return too. -/
def isGap (s : String) : Bool :=
  s ≠ "" && s.toList.all isBlank

/-- The words one after the other, with `gap i` behind the word number `i` if another follows. -/
def weave (gap : Nat → String) : List String → String
  | [] => ""
  | [word] => word
  | word :: next :: rest => word ++ gap 0 ++ weave (fun i => gap (i + 1)) (next :: rest)

end Text

theorem isLexical_of_isBlank {c : Char} (h : Text.isBlank c = true) : isLexical c = false := by
  rw [Bool.eq_false_iff]
  intro hlexical
  rw [not_isBlank_of_isLexical hlexical] at h
  cases h

/-- Blanks, however many, only separate what stands on both sides of them. -/
theorem lineTokens_append_blanks (number : Nat) (line : List Char) {blanks : List Char}
    (h : blanks.all Text.isBlank = true) (hne : blanks ≠ []) (rest : List Char) :
    lineTokens number (line ++ blanks ++ rest) =
      lineTokens number line ++ lineTokens number rest := by
  induction blanks generalizing line with
  | nil => exact absurd rfl hne
  | cons c blanks ih =>
    obtain ⟨hc, hblanks⟩ := Bool.and_eq_true_iff.1 h
    rw [List.append_assoc, List.cons_append, lineTokens_append_cons (isLexical_of_isBlank hc)]
    cases blanks with
    | nil => rfl
    | cons d blanks =>
      have hrest := ih [] hblanks (by simp)
      rw [List.nil_append, lineTokens_nil, List.nil_append] at hrest
      rw [hrest]

theorem lineTokens_append_gap (number : Nat) (word : String) {gap : String}
    (h : Text.isGap gap = true) (rest : String) :
    lineTokens number (word ++ gap ++ rest).toList =
      lineTokens number word.toList ++ lineTokens number rest.toList := by
  obtain ⟨hne, hblank⟩ : gap ≠ "" ∧ gap.toList.all Text.isBlank = true := by
    simpa [Text.isGap] using h
  rw [String.toList_append, String.toList_append]
  exact lineTokens_append_blanks number _ hblank (by simpa using hne) _

/-! ### Lexemes -/

/-- As far as lexemes go, a text is one line. -/
theorem map_lexeme_tokenize (source : String) :
    (tokenize source).map Token.lexeme = (lineTokens 1 source.toList).map Token.lexeme := by
  rw [← map_onLine_tokenize, List.map_map]
  rfl

theorem map_lexeme_tokenize_weave {lexemes : List (Token.Kind × String)}
    (h : ∀ x ∈ lexemes, x.1.Matches x.2.toList) (gap : Nat → String)
    (hgap : ∀ i, Text.isGap (gap i) = true) :
    (tokenize (Text.weave gap (lexemes.map Prod.snd))).map Token.lexeme = lexemes := by
  rw [map_lexeme_tokenize]
  induction lexemes generalizing gap with
  | nil => simp [Text.weave, lineTokens_nil]
  | cons x lexemes ih =>
    have hx := lineTokens_lexeme (h x (by simp)) 1
    cases lexemes with
    | nil => simp [Text.weave, hx, Token.lexeme]
    | cons y lexemes =>
      have hrest := ih (fun z hz => h z (by simp [hz])) _ fun i => hgap (i + 1)
      rw [List.map_cons] at hrest
      rw [List.map_cons, List.map_cons, Text.weave, lineTokens_append_gap 1 _ (hgap 0), hx,
        List.map_append, hrest]
      rfl

/-- Lexemes that are written with gaps between them are scanned one by one, and what scanning finds
in a text are always lexemes. So it can find any list of lexemes and no other lists, and the lexemes
of a text, written with single blanks, are found again. -/
theorem tokenize_inverts_weave :
    (∀ (lexemes : List (Token.Kind × String)) (gap : Nat → String),
      (∀ x ∈ lexemes, x.1.Matches x.2.toList) → (∀ i, Text.isGap (gap i) = true) →
      (tokenize (Text.weave gap (lexemes.map Prod.snd))).map Token.lexeme = lexemes) ∧
    (∀ lexemes : List (Token.Kind × String),
      (∃ source, (tokenize source).map Token.lexeme = lexemes) ↔
        ∀ x ∈ lexemes, x.1.Matches x.2.toList) ∧
    ∀ source, (tokenize (" ".intercalate ((tokenize source).map Token.text))).map Token.lexeme =
      (tokenize source).map Token.lexeme := by
  refine ⟨fun lexemes gap h hgap => map_lexeme_tokenize_weave h gap hgap, fun lexemes => ⟨?_, ?_⟩,
    fun source => ?_⟩
  · rintro ⟨source, rfl⟩ x hx
    obtain ⟨t, ht, rfl⟩ := List.mem_map.1 hx
    exact matches_of_mem_tokenize ht
  · intro h
    exact ⟨_, map_lexeme_tokenize_weave h (fun _ => " ") fun _ => by decide⟩
  · rw [tokenize_join fun t ht => matches_of_mem_tokenize ht, List.map_map]
    rfl

/-- The lexemes of a dense line, found again in a text of several lines. -/
theorem tokenize_inverts_weave_lines :
    let gap : Nat → String := fun i => if i = 1 then "\r\n" else if i = 2 then "\n \n" else "\t"
    let lexemes : List (Token.Kind × String) :=
      [(.keyword, "float"), (.identifier, "x1"), (.assignment, "="), (.floatNumber, "2.50"),
        (.operator, "*"), (.identifier, "_y"), (.separator, ";")]
    Text.weave gap (lexemes.map Prod.snd) = "float\tx1\r\n=\n \n2.50\t*\t_y\t;" ∧
      (tokenize "float\tx1\r\n=\n \n2.50\t*\t_y\t;").map Token.lexeme = lexemes := by
  intro gap lexemes
  have hdense : (tokenize "float x1=2.50*_y;").map Token.lexeme = lexemes := by
    decide +kernel
  have hmatches := (tokenize_inverts_weave.2.1 lexemes).1 ⟨_, hdense⟩
  have hgap : ∀ i, Text.isGap (gap i) = true := by
    intro i
    simp only [gap]
    repeat' split
    all_goals decide
  have htext : Text.weave gap (lexemes.map Prod.snd) = "float\tx1\r\n=\n \n2.50\t*\t_y\t;" := by
    decide
  refine ⟨htext, ?_⟩
  rw [← htext]
  exact tokenize_inverts_weave.1 lexemes gap hmatches hgap

end ThreeAddress
