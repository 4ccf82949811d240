import ThreeAddress.Token.Segment

/-!
# The patterns of lexemes

`Token.Kind.Matches` gives the pattern of every category of lexemes, and every token of a text
matches the pattern of its category (`matches_of_mem_tokenize`). In particular the texts of numbers
are numerals (`IsNumeral`), and names, which start with no digit, are never numerals.
-/

namespace ThreeAddress

/-! ### Patterns -/

def IsDigits (cs : List Char) : Prop :=
  cs ≠ [] ∧ ∀ c ∈ cs, c.isDigit = true

def IsDecimal (cs : List Char) : Prop :=
  ∃ whole frac, cs = whole ++ '.' :: frac ∧ IsDigits whole ∧ IsDigits frac

/-- A letter or the low line, then letters, digits and low lines. -/
def IsWord (cs : List Char) : Prop :=
  ∃ c rest, cs = c :: rest ∧ isWordStart c = true ∧ ∀ d ∈ rest, isWordPart d = true

/-- The texts that are lexemes of a category. -/
def Token.Kind.Matches : Token.Kind → List Char → Prop
  | keyword, cs => String.ofList cs ∈ keywords
  | identifier, cs => IsWord cs ∧ String.ofList cs ∉ keywords
  | floatNumber, cs => IsDecimal cs
  | number, cs => IsDigits cs
  | assignment, cs => cs = ['=']
  | operator, cs => cs ∈ [['+'], ['-'], ['*'], ['/']]
  | separator, cs => cs ∈ [[';'], ['('], [')']]

def Token.Matches (t : Token) : Prop :=
  t.kind.Matches t.text.toList

theorem matches_wordKind {word : List Char} (h : IsWord word) : (wordKind word).Matches word := by
  unfold wordKind
  split
  · next hk => exact hk
  · next hk => exact ⟨h, hk⟩

theorem matches_of_punctuation? {c : Char} {kind : Token.Kind} (h : punctuation? c = some kind) :
    kind.Matches [c] := by
  unfold punctuation? at h
  split at h
  · next hc => cases h; rw [hc]; rfl
  split at h
  · next hc => cases h; simpa [Token.Kind.Matches] using hc
  split at h
  · next hc => cases h; simpa [Token.Kind.Matches] using hc
  · cases h

theorem matches_of_numberSegment {digits rest text : List Char} {kind : Token.Kind}
    (hdigits : IsDigits digits) (h : (numberSegment digits rest).1 = .lexeme kind text) :
    kind.Matches text := by
  unfold numberSegment at h
  split at h
  · next d rest =>
    split at h
    · next hd =>
      cases h
      refine ⟨digits, d :: rest.takeWhile Char.isDigit, rfl, hdigits, by simp, ?_⟩
      intro c hc
      rcases List.mem_cons.1 hc with rfl | hc
      · exact hd
      · exact List.all_eq_true.1 List.all_takeWhile c hc
    · cases h; exact hdigits
  · cases h; exact hdigits

theorem matches_of_firstSegment {c : Char} {cs text : List Char} {kind : Token.Kind}
    (h : (firstSegment c cs).1 = .lexeme kind text) : kind.Matches text := by
  unfold firstSegment at h
  split at h
  · next hc =>
    cases h
    exact matches_wordKind ⟨c, _, rfl, hc, List.all_eq_true.1 List.all_takeWhile⟩
  split at h
  · next hc =>
    refine matches_of_numberSegment ⟨by simp, fun d hd => ?_⟩ h
    rcases List.mem_cons.1 hd with rfl | hd
    · exact hc
    · exact List.all_eq_true.1 List.all_takeWhile d hd
  split at h
  · next kind' hk => cases h; exact matches_of_punctuation? hk
  · cases h

theorem matches_of_mem_scanLine {line text : List Char} {kind : Token.Kind}
    (h : .lexeme kind text ∈ scanLine line) : kind.Matches text := by
  fun_induction scanLine line with
  | case1 => cases h
  | case2 c cs ih =>
    rcases List.mem_cons.1 h with h | h
    · exact matches_of_firstSegment h.symm
    · exact ih h

theorem matches_of_mem_tokenize {source : String} {t : Token} (h : t ∈ tokenize source) :
    t.Matches := by
  unfold tokenize tokensOf scan at h
  obtain ⟨⟨number, segment⟩, hmem, ht⟩ := List.mem_filterMap.1 h
  obtain ⟨⟨line, _⟩, -, hmem⟩ := List.mem_flatMap.1 hmem
  obtain ⟨_, hmem, ⟨⟩⟩ := List.mem_map.1 hmem
  cases segment with
  | skipped c => cases ht
  | lexeme kind text =>
    cases ht
    simpa [Token.Matches] using matches_of_mem_scanLine hmem

/-! ### Numerals -/

theorem isDigits_iff {cs : List Char} :
    IsDigits cs ↔ cs ≠ [] ∧ cs.all Char.isDigit = true := by
  rw [IsDigits, List.all_eq_true]

instance : DecidablePred IsDigits := fun _ => decidable_of_iff _ isDigits_iff.symm

/-- The point of a decimal stands behind its first run of digits. -/
theorem isDecimal_iff {cs : List Char} :
    IsDecimal cs ↔ IsDigits (cs.takeWhile Char.isDigit) ∧
      (cs.dropWhile Char.isDigit).head? = some '.' ∧
      IsDigits (cs.dropWhile Char.isDigit).tail := by
  constructor
  · rintro ⟨whole, frac, rfl, hwhole, hfrac⟩
    have hpoint : Char.isDigit '.' = false := by decide
    rw [List.takeWhile_append_of_pos hwhole.2, List.dropWhile_append_of_pos hwhole.2]
    simpa [List.takeWhile, List.dropWhile, hpoint] using ⟨hwhole, hfrac⟩
  · rintro ⟨hwhole, hpoint, hfrac⟩
    refine ⟨_, _, ?_, hwhole, hfrac⟩
    obtain ⟨rest, hrest⟩ := List.head?_eq_some_iff.1 hpoint
    rw [hrest, List.tail_cons, ← hrest, List.takeWhile_append_dropWhile]

instance : DecidablePred IsDecimal := fun _ => decidable_of_iff _ isDecimal_iff.symm

/-- A text that is the lexeme of a number, with or without a point. -/
def IsNumeral (text : String) : Prop :=
  IsDigits text.toList ∨ IsDecimal text.toList

instance : DecidablePred IsNumeral := fun text =>
  inferInstanceAs (Decidable (IsDigits text.toList ∨ IsDecimal text.toList))

theorem IsNumeral.matches {text : String} (h : IsNumeral text) :
    ∃ kind, (kind = .number ∨ kind = .floatNumber) ∧ Token.Kind.Matches kind text.toList := by
  rcases h with h | h
  · exact ⟨.number, .inl rfl, h⟩
  · exact ⟨.floatNumber, .inr rfl, h⟩

theorem IsDecimal.isDigit_head {c : Char} {cs : List Char} (h : IsDecimal (c :: cs)) :
    c.isDigit = true := by
  obtain ⟨whole, frac, hcs, hwhole, -⟩ := h
  cases whole with
  | nil => exact absurd rfl hwhole.1
  | cons d whole =>
    obtain rfl : c = d := (List.cons.inj hcs).1
    exact hwhole.2 c (by simp)

theorem IsNumeral.isDigit_head {text : String} {c : Char} {rest : List Char} (h : IsNumeral text)
    (hc : text.toList = c :: rest) : c.isDigit = true := by
  unfold IsNumeral at h
  rw [hc] at h
  rcases h with h | h
  · exact h.2 c (by simp)
  · exact h.isDigit_head

theorem le_toNat_of_isAlpha {c : Char} (h : c.isAlpha = true) : 'A'.toNat ≤ c.toNat := by
  rcases Bool.or_eq_true_iff.1 h with h | h
  · exact UInt32.le_iff_toNat_le.1 (of_decide_eq_true h).1
  · have h : 'a'.val ≤ c.val := of_decide_eq_true (Bool.and_eq_true_iff.1 h).1
    have hcase : 'A'.val ≤ 'a'.val := by decide
    exact UInt32.le_iff_toNat_le.1 (UInt32.le_trans hcase h)

theorem not_isDigit_of_isWordStart {c : Char} (h : isWordStart c = true) : c.isDigit = false := by
  have hcase : c.isAlpha = true ∨ c = '_' := by simpa [isWordStart] using h
  rcases hcase with h | rfl
  · rw [← Bool.not_eq_true, Char.isDigit_iff_toNat]
    rintro ⟨-, hdigit⟩
    -- the letters all come behind the digits
    have hle : 'A'.toNat ≤ '9'.toNat := Nat.le_trans (le_toNat_of_isAlpha h) hdigit
    exact absurd hle (by decide)
  · decide

theorem not_isNumeral_of_isWord {text : String} (h : IsWord text.toList) : ¬ IsNumeral text := by
  obtain ⟨c, rest, hcs, hc, -⟩ := h
  intro hnum
  have := hnum.isDigit_head hcs
  rw [not_isDigit_of_isWordStart hc] at this
  cases this

end ThreeAddress
