import Mathlib.Data.List.Forall2
import ThreeAddress.Proofs.Lexeme
import ThreeAddress.Proofs.Lines

/-!
# Longest match

`Segmented line segments` says, without any scanner, that a line is cut by longest match: every
lexeme matches the pattern of its category and no longer beginning of what is left of the line is a
lexeme, and where a character is skipped no beginning of what is left is one. A line has exactly
one such segmentation, and it is what scanning gives (`segmented_iff`).

The patterns are told apart by the first character (`Token.Kind.Matches.shape`), so the category
of a lexeme follows from its text. A line breaks at every character that is no part of a longer
lexeme: what stands before it is scanned on its own (`scanLine_append`).
-/

namespace ThreeAddress

/-! ### The shapes of lexemes -/

theorem isWord_of_mem_keywords {cs : List Char} (h : String.ofList cs ∈ keywords) : IsWord cs := by
  have hcases : cs = "int".toList ∨ cs = "float".toList ∨ cs = "print".toList := by
    simpa [keywords, String.ext_iff] using h
  rcases hcases with rfl | rfl | rfl
  · exact ⟨'i', ['n', 't'], rfl, by decide, List.all_eq_true.1 (by decide)⟩
  · exact ⟨'f', ['l', 'o', 'a', 't'], rfl, by decide, List.all_eq_true.1 (by decide)⟩
  · exact ⟨'p', ['r', 'i', 'n', 't'], rfl, by decide, List.all_eq_true.1 (by decide)⟩

/-- What a lexeme can be, and its category then. -/
theorem Token.Kind.Matches.shape {kind : Token.Kind} {text : List Char} (h : kind.Matches text) :
    (IsWord text ∧ kind = wordKind text) ∨ (IsDigits text ∧ kind = .number) ∨
      (IsDecimal text ∧ kind = .floatNumber) ∨ ∃ c, text = [c] ∧ punctuation? c = some kind := by
  cases kind with
  | keyword => exact .inl ⟨isWord_of_mem_keywords h, (if_pos h).symm⟩
  | identifier => exact .inl ⟨h.1, (if_neg h.2).symm⟩
  | floatNumber => exact .inr (.inr (.inl ⟨h, rfl⟩))
  | number => exact .inr (.inl ⟨h, rfl⟩)
  | assignment => exact .inr (.inr (.inr ⟨'=', h, rfl⟩))
  | operator =>
    have hcases : text = ['+'] ∨ text = ['-'] ∨ text = ['*'] ∨ text = ['/'] := by
      simpa [Token.Kind.Matches] using h
    rcases hcases with rfl | rfl | rfl | rfl <;> exact .inr (.inr (.inr ⟨_, rfl, rfl⟩))
  | separator =>
    have hcases : text = [';'] ∨ text = ['('] ∨ text = [')'] := by
      simpa [Token.Kind.Matches] using h
    rcases hcases with rfl | rfl | rfl <;> exact .inr (.inr (.inr ⟨_, rfl, rfl⟩))

theorem isWordPart_of_isDigit {c : Char} (h : c.isDigit = true) : isWordPart c = true := by
  simp [isWordPart, Char.isAlphanum, h]

theorem isWordPart_of_isWordStart {c : Char} (h : isWordStart c = true) : isWordPart c = true := by
  have hcases : c.isAlpha = true ∨ c = '_' := by simpa [isWordStart] using h
  rcases hcases with h | rfl
  · simp [isWordPart, Char.isAlphanum, h]
  · decide

theorem isSome_punctuation?_iff {c : Char} :
    (punctuation? c).isSome = true ↔
      c = '=' ∨ (c = '+' ∨ c = '-' ∨ c = '*' ∨ c = '/') ∨ c = ';' ∨ c = '(' ∨ c = ')' := by
  unfold punctuation?
  split
  · next h => exact iff_of_true rfl (.inl h)
  next hassign =>
  split
  · next h => exact iff_of_true rfl (.inr (.inl h))
  next hop =>
  split
  · next h => exact iff_of_true rfl (.inr (.inr h))
  next hsep =>
  exact iff_of_false Bool.false_ne_true fun h =>
    h.elim hassign fun h => h.elim hop hsep

/-- The characters that a line breaks at: no part of a longer lexeme. -/
def isBreak (c : Char) : Bool :=
  !isWordPart c && c != '.'

theorem isBreak_of_punctuation? {c : Char} {kind : Token.Kind} (h : punctuation? c = some kind) :
    isBreak c = true := by
  have hsome : (punctuation? c).isSome = true := by rw [h]; rfl
  rcases isSome_punctuation?_iff.1 hsome with rfl | (rfl | rfl | rfl | rfl) | rfl | rfl | rfl <;>
    decide

theorem starts_of_isBreak {c : Char} (h : isBreak c = true) :
    isWordStart c = false ∧ c.isDigit = false := by
  have hpart : ¬ isWordPart c = true := by simp_all [isBreak]
  constructor
  · exact Bool.eq_false_iff.2 fun hstart => hpart (isWordPart_of_isWordStart hstart)
  · exact Bool.eq_false_iff.2 fun hdigit => hpart (isWordPart_of_isDigit hdigit)

theorem Token.Kind.Matches.ne_nil {kind : Token.Kind} {text : List Char} (h : kind.Matches text) :
    text ≠ [] := by
  rcases h.shape with ⟨⟨c, rest, rfl, -⟩, -⟩ | ⟨h, -⟩ | ⟨⟨whole, frac, rfl, -⟩, -⟩ | ⟨c, rfl, -⟩
  · simp
  · exact h.1
  · simp
  · simp

theorem IsDecimal.not_isDigits {cs : List Char} (h : IsDecimal cs) : ¬ IsDigits cs := by
  obtain ⟨whole, frac, rfl, -⟩ := h
  intro hdigits
  have hpoint : Char.isDigit '.' = true := hdigits.2 '.' (by simp)
  exact absurd hpoint (by decide)

/-! A lexeme by its first character: a word, a numeral, or that character alone. -/

namespace Token.Kind.Matches

variable {kind kind' : Token.Kind} {c : Char} {cs text : List Char}

theorem of_wordStart (h : kind.Matches (c :: cs)) (hc : isWordStart c = true) :
    (∀ d ∈ cs, isWordPart d = true) ∧ kind = wordKind (c :: cs) := by
  have hnum : ¬ c.isDigit = true := by simp [not_isDigit_of_isWordStart hc]
  rcases h.shape with ⟨⟨c', rest, hcs, -, hrest⟩, hkind⟩ | ⟨h, -⟩ | ⟨h, -⟩ | ⟨c', hcs, hc'⟩
  · obtain ⟨-, rfl⟩ := List.cons.inj hcs
    exact ⟨hrest, hkind⟩
  · exact absurd (h.2 c (by simp)) hnum
  · exact absurd h.isDigit_head hnum
  · obtain ⟨rfl, rfl⟩ := List.cons.inj hcs
    rw [(starts_of_isBreak (isBreak_of_punctuation? hc')).1] at hc
    cases hc

theorem of_isDigit (h : kind.Matches (c :: cs)) (hc : c.isDigit = true) :
    (IsDigits (c :: cs) ∧ kind = .number) ∨ (IsDecimal (c :: cs) ∧ kind = .floatNumber) := by
  rcases h.shape with ⟨⟨c', rest, hcs, hc', -⟩, -⟩ | h | h | ⟨c', hcs, hc'⟩
  · obtain ⟨rfl, rfl⟩ := List.cons.inj hcs
    rw [not_isDigit_of_isWordStart hc'] at hc
    cases hc
  · exact .inl h
  · exact .inr h
  · obtain ⟨rfl, rfl⟩ := List.cons.inj hcs
    rw [(starts_of_isBreak (isBreak_of_punctuation? hc')).2] at hc
    cases hc

theorem of_other (h : kind.Matches (c :: cs)) (hword : ¬ isWordStart c = true)
    (hdigit : ¬ c.isDigit = true) : cs = [] ∧ punctuation? c = some kind := by
  rcases h.shape with ⟨⟨c', rest, hcs, hc', -⟩, -⟩ | ⟨h, -⟩ | ⟨h, -⟩ | ⟨c', hcs, hc'⟩
  · obtain ⟨rfl, rfl⟩ := List.cons.inj hcs
    exact absurd hc' hword
  · exact absurd (h.2 c (by simp)) hdigit
  · exact absurd h.isDigit_head hdigit
  · obtain ⟨rfl, rfl⟩ := List.cons.inj hcs
    exact ⟨rfl, hc'⟩

/-- The text of a lexeme determines its category. -/
theorem kind_eq (h : kind.Matches text) (h' : kind'.Matches text) : kind = kind' := by
  cases text with
  | nil => exact absurd rfl h.ne_nil
  | cons c cs =>
    by_cases hword : isWordStart c = true
    · exact (h.of_wordStart hword).2.trans (h'.of_wordStart hword).2.symm
    by_cases hdigit : c.isDigit = true
    · rcases h.of_isDigit hdigit with ⟨hn, rfl⟩ | ⟨hf, rfl⟩ <;>
        rcases h'.of_isDigit hdigit with ⟨hn', rfl⟩ | ⟨hf', rfl⟩
      · rfl
      · exact absurd hn hf'.not_isDigits
      · exact absurd hn' hf.not_isDigits
      · rfl
    · have hkind := (h.of_other hword hdigit).2
      rw [(h'.of_other hword hdigit).2] at hkind
      exact (Option.some.inj hkind).symm

end Token.Kind.Matches

/-! ### Segmentations -/

/-- The line is cut into the segments by longest match. -/
inductive Segmented : List Char → List Segment → Prop
  | nil : Segmented [] []
  | lexeme {kind : Token.Kind} {text rest : List Char} {segments : List Segment}
      (hmatch : kind.Matches text)
      (hlongest : ∀ kind' text', text' <+: text ++ rest → Token.Kind.Matches kind' text' →
        text'.length ≤ text.length)
      (h : Segmented rest segments) :
      Segmented (text ++ rest) (.lexeme kind text :: segments)
  | skipped {c : Char} {rest : List Char} {segments : List Segment}
      (hnone : ∀ kind text, text <+: c :: rest → ¬ Token.Kind.Matches kind text)
      (h : Segmented rest segments) : Segmented (c :: rest) (.skipped c :: segments)

theorem length_le_takeWhile {p : Char → Bool} {us cs : List Char} (hpre : us <+: cs)
    (hall : ∀ d ∈ us, p d = true) : us.length ≤ (cs.takeWhile p).length := by
  obtain ⟨v, rfl⟩ := hpre
  rw [List.takeWhile_append_of_pos hall, List.length_append]
  omega

/-- No numeral at the beginning of a line is longer than the one that is read there. -/
theorem length_le_numberSegment {cs us text : List Char} {kind : Token.Kind}
    (h : (numberSegment (cs.takeWhile Char.isDigit) (cs.dropWhile Char.isDigit)).1 =
      .lexeme kind text)
    (hpre : us <+: cs) (hus : IsDigits us ∨ IsDecimal us) : us.length ≤ text.length := by
  rcases hus with hus | ⟨whole, frac, rfl, hwhole, hfrac⟩
  · have hle := length_le_takeWhile hpre hus.2
    unfold numberSegment at h
    split at h
    · split at h
      · cases h
        rw [List.length_append]
        omega
      · cases h; exact hle
    · cases h; exact hle
  · -- the point is where the digits stop, and a digit stands behind it
    obtain ⟨v, rfl⟩ := hpre
    cases frac with
    | nil => exact absurd rfl hfrac.1
    | cons d frac =>
      have hd : d.isDigit = true := hfrac.2 d (by simp)
      have hpoint : Char.isDigit '.' = false := by decide
      have hrest : ∀ e ∈ frac, e.isDigit = true := fun e he => hfrac.2 e (by simp [he])
      simp only [List.append_assoc, List.cons_append, List.takeWhile_append_of_pos hwhole.2,
        List.dropWhile_append_of_pos hwhole.2, List.takeWhile_cons, List.dropWhile_cons, hpoint,
        Bool.false_eq_true, if_false, List.append_nil, numberSegment, hd, if_true,
        List.takeWhile_append_of_pos hrest] at h
      cases h
      simp only [List.length_append, List.length_cons]
      omega

theorem firstSegment_longest {c : Char} {cs text us : List Char} {kind kind' : Token.Kind}
    (h : (firstSegment c cs).1 = .lexeme kind text) (hpre : us <+: c :: cs)
    (hus : kind'.Matches us) : us.length ≤ text.length := by
  obtain rfl | ⟨us, rfl, hpre'⟩ := List.prefix_cons_iff.1 hpre
  · exact absurd rfl hus.ne_nil
  unfold firstSegment at h
  split at h
  · next hword =>
    cases h
    simpa using length_le_takeWhile hpre' (hus.of_wordStart hword).1
  next hword =>
  split at h
  · next hdigit =>
    rw [← List.takeWhile_cons_of_pos hdigit, ← List.dropWhile_cons_of_pos hdigit] at h
    refine length_le_numberSegment h hpre ?_
    rcases hus.of_isDigit hdigit with ⟨hnum, -⟩ | ⟨hnum, -⟩
    · exact .inl hnum
    · exact .inr hnum
  · next hdigit =>
    obtain ⟨rfl, hpunct⟩ := hus.of_other hword hdigit
    rw [hpunct] at h
    cases h
    exact Nat.le_refl _

theorem not_matches_of_firstSegment {c d : Char} {cs us : List Char}
    (h : (firstSegment c cs).1 = .skipped d) (hpre : us <+: c :: cs) (kind : Token.Kind) :
    ¬ kind.Matches us := by
  intro hus
  obtain rfl | ⟨us, rfl, hpre'⟩ := List.prefix_cons_iff.1 hpre
  · exact absurd rfl hus.ne_nil
  unfold firstSegment at h
  split at h
  · cases h
  next hword =>
  split at h
  · unfold numberSegment at h
    split at h
    · split at h <;> cases h
    · cases h
  · next hdigit =>
    rw [(hus.of_other hword hdigit).2] at h
    cases h

theorem chars_append_of_firstSegment {c : Char} {cs rest : List Char} {segment : Segment}
    (h : firstSegment c cs = (segment, rest)) : segment.chars ++ rest = c :: cs := by
  have hchars := chars_firstSegment c cs
  rwa [h] at hchars

theorem firstSegment_eq_lexeme {c : Char} {cs text rest : List Char} {kind : Token.Kind}
    (hline : c :: cs = text ++ rest) (hmatch : kind.Matches text)
    (hlongest : ∀ kind' us, us <+: text ++ rest → Token.Kind.Matches kind' us →
      us.length ≤ text.length) : firstSegment c cs = (.lexeme kind text, rest) := by
  have hpre : text <+: c :: cs := hline ▸ List.prefix_append text rest
  rcases hfirst : firstSegment c cs with ⟨segment, rest'⟩
  have hchars := chars_append_of_firstSegment hfirst
  cases segment with
  | skipped d =>
    exact absurd hmatch (not_matches_of_firstSegment (congrArg Prod.fst hfirst) hpre kind)
  | lexeme kind' text' =>
    rw [Segment.chars] at hchars
    have hmatch' := matches_of_firstSegment (congrArg Prod.fst hfirst)
    -- each of the two texts is at least as long as the other
    have hle : text.length ≤ text'.length :=
      firstSegment_longest (congrArg Prod.fst hfirst) hpre hmatch
    have hge : text'.length ≤ text.length :=
      hlongest kind' text' (hline ▸ hchars ▸ List.prefix_append text' rest') hmatch'
    obtain ⟨rfl, rfl⟩ := List.append_inj (hchars.trans hline) (Nat.le_antisymm hge hle)
    rw [hmatch'.kind_eq hmatch]

theorem firstSegment_eq_skipped {c : Char} {cs : List Char}
    (hnone : ∀ kind us, us <+: c :: cs → ¬ Token.Kind.Matches kind us) :
    firstSegment c cs = (.skipped c, cs) := by
  rcases hfirst : firstSegment c cs with ⟨segment, rest⟩
  have hchars := chars_append_of_firstSegment hfirst
  cases segment with
  | skipped d =>
    obtain ⟨rfl, rfl⟩ := List.cons.inj hchars
    rfl
  | lexeme kind text =>
    have hmatch := matches_of_firstSegment (congrArg Prod.fst hfirst)
    exact absurd hmatch (hnone kind text (hchars ▸ List.prefix_append text rest))

theorem segmented_scanLine (line : List Char) : Segmented line (scanLine line) := by
  fun_induction scanLine line with
  | case1 => exact .nil
  | case2 c cs ih =>
    rcases hfirst : firstSegment c cs with ⟨segment, rest⟩
    have hchars := chars_append_of_firstSegment hfirst
    rw [hfirst] at ih
    cases segment with
    | lexeme kind text =>
      rw [← hchars]
      refine .lexeme (matches_of_firstSegment (congrArg Prod.fst hfirst)) ?_ ih
      intro kind' us hpre hus
      exact firstSegment_longest (congrArg Prod.fst hfirst) (hchars ▸ hpre) hus
    | skipped d =>
      obtain ⟨rfl, rfl⟩ := List.cons.inj hchars
      exact .skipped (fun kind us hpre =>
        not_matches_of_firstSegment (congrArg Prod.fst hfirst) hpre kind) ih

theorem Segmented.eq_scanLine {line : List Char} {segments : List Segment}
    (h : Segmented line segments) : segments = scanLine line := by
  induction h with
  | nil => exact scanLine_nil.symm
  | @lexeme kind text rest segments hmatch hlongest _ ih =>
    cases text with
    | nil => exact absurd rfl hmatch.ne_nil
    | cons c cs =>
      have hfirst : firstSegment c (cs ++ rest) = (.lexeme kind (c :: cs), rest) :=
        firstSegment_eq_lexeme rfl hmatch hlongest
      rw [List.cons_append, scanLine_cons, hfirst, ih]
  | @skipped c rest segments hnone _ ih => rw [scanLine_cons, firstSegment_eq_skipped hnone, ih]

/-- Scanning gives the one segmentation of a line by longest match. -/
theorem segmented_iff {line : List Char} {segments : List Segment} :
    Segmented line segments ↔ segments = scanLine line := by
  constructor
  · exact Segmented.eq_scanLine
  · rintro rfl
    exact segmented_scanLine line

/-! ### Places where a line breaks

A lexeme of more than one character has only parts of words and points in it. So a line breaks in
front of any other character, and behind it too, whether it is a lexeme or skipped. -/

theorem Token.Kind.Matches.mem_cases {kind : Token.Kind} {text : List Char}
    (h : kind.Matches text) {c : Char} (hc : c ∈ text) :
    isWordPart c = true ∨ c = '.' ∨ (text = [c] ∧ punctuation? c = some kind) := by
  rcases h.shape with ⟨⟨d, rest, rfl, hd, hrest⟩, -⟩ | ⟨h, -⟩ |
    ⟨⟨whole, frac, rfl, hwhole, hfrac⟩, -⟩ | ⟨d, rfl, hd⟩
  · rcases List.mem_cons.1 hc with rfl | hc
    · exact .inl (isWordPart_of_isWordStart hd)
    · exact .inl (hrest c hc)
  · exact .inl (isWordPart_of_isDigit (h.2 c hc))
  · rcases List.mem_append.1 hc with hc | hc
    · exact .inl (isWordPart_of_isDigit (hwhole.2 c hc))
    rcases List.mem_cons.1 hc with rfl | hc
    · exact .inr (.inl rfl)
    · exact .inl (isWordPart_of_isDigit (hfrac.2 c hc))
  · obtain rfl := List.mem_singleton.1 hc
    exact .inr (.inr ⟨rfl, hd⟩)

theorem Token.Kind.Matches.eq_singleton {kind : Token.Kind} {text : List Char}
    (h : kind.Matches text) {c : Char} (hc : c ∈ text) (hbreak : isBreak c = true) :
    text = [c] := by
  have hpart : isWordPart c = false ∧ c ≠ '.' := by simpa [isBreak] using hbreak
  rcases h.mem_cases hc with h | h | ⟨h, -⟩
  · rw [hpart.1] at h
    cases h
  · exact absurd h hpart.2
  · exact h

theorem prefix_of_prefix_append_cons {us cs ds : List Char} {d : Char} (hd : d ∉ us)
    (hpre : us <+: cs ++ d :: ds) : us <+: cs := by
  refine List.prefix_of_prefix_length_le hpre (List.prefix_append cs _) ?_
  refine Nat.le_of_not_lt fun hlen => hd ?_
  have hpre' : cs ++ [d] <+: us := by
    refine List.prefix_of_prefix_length_le ⟨ds, by simp⟩ hpre ?_
    simp only [List.length_append, List.length_singleton]
    omega
  exact hpre'.mem (by simp)

theorem Segmented.append {line rest : List Char} {segments more : List Segment} {d : Char}
    (hd : isBreak d = true) (h : Segmented line segments) (hrest : Segmented (d :: rest) more) :
    Segmented (line ++ d :: rest) (segments ++ more) := by
  induction h with
  | nil => exact hrest
  | @lexeme kind text line segments hmatch hlongest _ ih =>
    rw [List.append_assoc]
    refine .lexeme hmatch (fun kind' us hpre hus => ?_) ih
    by_cases hmem : d ∈ us
    · rw [hus.eq_singleton hmem hd]
      exact List.length_pos_iff.2 hmatch.ne_nil
    · rw [← List.append_assoc] at hpre
      exact hlongest kind' us (prefix_of_prefix_append_cons hmem hpre) hus
  | @skipped c line segments hnone _ ih =>
    refine .skipped (fun kind us hpre hus => ?_) ih
    by_cases hmem : d ∈ us
    · -- alone, `d` would be a lexeme where `c` is skipped
      obtain rfl := hus.eq_singleton hmem hd
      obtain ⟨rfl, -⟩ := List.cons_prefix_cons.1 hpre
      exact hnone kind _ (List.cons_prefix_cons.2 ⟨rfl, List.nil_prefix⟩) hus
    · exact hnone kind us (prefix_of_prefix_append_cons hmem hpre) hus

theorem scanLine_append {d : Char} (hd : isBreak d = true) (line rest : List Char) :
    scanLine (line ++ d :: rest) = scanLine line ++ scanLine (d :: rest) :=
  ((segmented_scanLine line).append hd (segmented_scanLine (d :: rest))).eq_scanLine.symm

theorem scanLine_cons_of_break {d : Char} (hd : isBreak d = true) (rest : List Char) :
    scanLine (d :: rest) =
      ((punctuation? d).elim (.skipped d) (.lexeme · [d])) :: scanLine rest := by
  obtain ⟨hstart, hdigit⟩ := starts_of_isBreak hd
  rw [scanLine_cons, firstSegment, hstart, hdigit]
  cases punctuation? d <;> rfl

/-- The characters that stand in lexemes. -/
def isLexical (c : Char) : Bool :=
  isWordPart c || c == '.' || (punctuation? c).isSome

theorem Token.Kind.Matches.isLexical {kind : Token.Kind} {text : List Char}
    (h : kind.Matches text) {c : Char} (hc : c ∈ text) : isLexical c = true := by
  rcases h.mem_cases hc with h | rfl | ⟨-, h⟩
  · simp [ThreeAddress.isLexical, h]
  · decide
  · simp [ThreeAddress.isLexical, h]

theorem Token.Kind.Matches.not_mem {kind : Token.Kind} {text : List Char} (h : kind.Matches text)
    {d : Char} (hd : ThreeAddress.isLexical d = false) : d ∉ text := by
  intro hmem
  rw [h.isLexical hmem] at hd
  cases hd

/-- A character that is not lexical is skipped, and what stands before it and behind it is scanned
as if it stood alone. -/
theorem scanLine_append_cons {d : Char} (hd : isLexical d = false) (line rest : List Char) :
    scanLine (line ++ d :: rest) = scanLine line ++ .skipped d :: scanLine rest := by
  obtain ⟨⟨hpart, hpoint⟩, hpunct⟩ :
      (isWordPart d = false ∧ d ≠ '.') ∧ punctuation? d = none := by
    simpa [isLexical] using hd
  have hbreak : isBreak d = true := by simp [isBreak, hpart, hpoint]
  rw [scanLine_append hbreak, scanLine_cons_of_break hbreak, hpunct]
  rfl

/-! ### The tokens of a text -/

/-- The tokens of the line with the given number. -/
def lineTokens (number : Nat) (line : List Char) : List Token :=
  (scanLine line).filterMap (Segment.token? number)

/-- A character that is not lexical only separates the tokens before it from those behind it. -/
theorem lineTokens_append_cons {d : Char} (hd : isLexical d = false) (number : Nat)
    (line rest : List Char) :
    lineTokens number (line ++ d :: rest) = lineTokens number line ++ lineTokens number rest := by
  simp only [lineTokens, scanLine_append_cons hd, List.filterMap_append]
  rw [List.filterMap_cons_none rfl]

theorem tokenize_eq (source : String) :
    tokenize source = ((Text.lines source.toList).zipIdx 1).flatMap fun (line, number) =>
      lineTokens number line := by
  simp only [tokenize, tokensOf, scan, List.filterMap_flatMap, List.filterMap_map]
  rfl

/-- The tokens of a text are the lexemes of its lines, each with the number of its line. -/
theorem tokenize_eq_lexemes (source : String) :
    tokenize source = ((Text.lines source.toList).map scanLine).zipIdx.flatMap fun (line, n) =>
      line.filterMap fun
        | .lexeme kind text => some ⟨kind, String.ofList text, n + 1⟩
        | .skipped _ => none := by
  rw [tokenize_eq, List.zipIdx_map, List.flatMap_map, List.zipIdx_succ, List.flatMap_map]
  rfl

theorem forall₂_segmented_iff {lines : List (List Char)} {segments : List (List Segment)} :
    List.Forall₂ Segmented lines segments ↔ segments = lines.map scanLine := by
  rw [eq_comm, ← List.forall₂_eq_eq_eq, List.forall₂_map_left_iff]
  exact ⟨.imp fun _ _ h => (segmented_iff.1 h).symm, .imp fun _ _ h => segmented_iff.2 h.symm⟩

/-- Every line of a text has exactly one segmentation by longest match, and the lexemes in these
segmentations are the tokens of the text, in their order. A token is on line `n + 1` if `n` line
feeds stand before it. -/
theorem tokenize_longest_match (source : String) :
    ∃ segments : List (List Segment),
      List.Forall₂ Segmented (Text.lines source.toList) segments ∧
      (∀ other, List.Forall₂ Segmented (Text.lines source.toList) other → other = segments) ∧
      (tokenize source = segments.zipIdx.flatMap fun (line, n) => line.filterMap fun
        | .lexeme kind text => some ⟨kind, String.ofList text, n + 1⟩
        | .skipped _ => none) ∧
      ∀ n before kind text after, segments[n]? = some (before ++ .lexeme kind text :: after) →
        ∃ start rest, source.toList = start ++ before.flatMap Segment.chars ++ text ++ rest ∧
          (start = [] ∨ start.getLast? = some '\n') ∧
          (start ++ before.flatMap Segment.chars).count '\n' = n := by
  refine ⟨(Text.lines source.toList).map scanLine, forall₂_segmented_iff.2 rfl,
    fun other => forall₂_segmented_iff.1, tokenize_eq_lexemes source, ?_⟩
  intro n before kind text after h
  rw [List.getElem?_map, Option.map_eq_some_iff] at h
  obtain ⟨line, hline, hscan⟩ := h
  obtain ⟨start, rest, hsource, hcount, hstart, hnone⟩ := Text.exists_of_getElem?_lines hline
  have hchars : before.flatMap Segment.chars ++ (text ++ after.flatMap Segment.chars) = line := by
    rw [← flatMap_chars_scanLine line, hscan, List.flatMap_append, List.flatMap_cons,
      Segment.chars]
  refine ⟨start, after.flatMap Segment.chars ++ rest, ?_, hstart, ?_⟩
  · rw [hsource, ← hchars]
    simp only [List.append_assoc]
  · -- the line itself has no line feed, so all those before the token stand before the line
    rw [← hchars, List.mem_append, not_or] at hnone
    rw [List.count_append, hcount, List.count_eq_zero.2 hnone.1, Nat.add_zero]

end ThreeAddress
