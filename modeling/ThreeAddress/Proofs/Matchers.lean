import Mathlib.Data.List.TakeWhile
import ThreeAddress.Proofs.LongestMatch

/-!
# Matchers

A matcher says how much of a list matches at its beginning. Seven of them, tried in turn, find the
tokens of a line. They read numbers, be these bytes or the codes of characters, and fail if they cut
the list where the check `ok` forbids it.

The matchers look only at the ASCII that comes first (`Matcher.ReadsAscii`), so they find the same
in lists that begin with the same ASCII. On characters they find the segments of the line
(`firstMatch_eq`) and so its tokens (`charTokens_eq`).
-/

namespace ThreeAddress

namespace ByteScan

/-! ### Matchers -/

def isStart (c : Nat) : Bool :=
  ('a'.toNat ≤ c && c ≤ 'z'.toNat) || ('A'.toNat ≤ c && c ≤ 'Z'.toNat) || c == '_'.toNat

def isDigit (c : Nat) : Bool :=
  '0'.toNat ≤ c && c ≤ '9'.toNat

def isPart (c : Nat) : Bool :=
  isStart c || isDigit c

/-- The bytes of a text. -/
def codes (text : String) : List Nat :=
  text.toByteArray.data.toList.map UInt8.toNat

/-- What `s` has from place `i` on, if it may be cut there. -/
def from? (ok : Nat → Bool) (s : List Nat) (i : Nat) : Option (List Nat) :=
  if ok i then some (s.drop i) else none

/-- What `s` has before place `i`, if it may be cut there. -/
def upTo? (ok : Nat → Bool) (s : List Nat) (i : Nat) : Option (List Nat) :=
  if ok i then some (s.take i) else none

/-- How much matches at the beginning of a list that may be cut at certain places. -/
abbrev Matcher :=
  (Nat → Bool) → List Nat → Option Nat

def word : Matcher := fun ok s =>
  match s.head? with
  | some c =>
    if isStart c then do
      let rest ← from? ok s 1
      return 1 + (rest.takeWhile isPart).length
    else some 0
  | none => some 0

def keyword : Matcher := fun ok s => do
  let len ← word ok s
  let text ← upTo? ok s len
  return if keywords.any fun kw => codes kw == text then len else 0

def digits (s : List Nat) : Nat :=
  (s.takeWhile isDigit).length

def decimal : Matcher := fun ok s =>
  let whole := digits s
  if whole = 0 ∨ s[whole]? ≠ some '.'.toNat then some 0
  else do
    let rest ← from? ok s (whole + 1)
    return match digits rest with
      | 0 => 0
      | frac => whole + 1 + frac

def number : Matcher := fun _ s =>
  some (digits s)

def oneOf (set : String) : Matcher := fun _ s =>
  match s.head? with
  | some c => if c ∈ codes set then some 1 else some 0
  | none => some 0

/-- The matchers in the order in which they are tried. -/
def matchers : List (Token.Kind × Matcher) :=
  [(.keyword, keyword), (.identifier, word), (.floatNumber, decimal), (.number, number),
    (.assignment, oneOf "="), (.operator, oneOf "+-*/"), (.separator, oneOf ";()")]

/-- The first of the matchers that matches anything, and how much. -/
def firstMatch (ok : Nat → Bool) (s : List Nat) :
    List (Token.Kind × Matcher) → Option (Option (Token.Kind × Nat))
  | [] => some none
  | (kind, m) :: rest => do
    let len ← m ok s
    if 0 < len then return some (kind, len) else firstMatch ok s rest

theorem pos_of_firstMatch {ok : Nat → Bool} {s : List Nat} {ms : List (Token.Kind × Matcher)}
    {kind : Token.Kind} {n : Nat} (h : firstMatch ok s ms = some (some (kind, n))) : 0 < n := by
  induction ms with
  | nil => cases h
  | cons p ms ih =>
    obtain ⟨len, -, h⟩ := Option.bind_eq_some_iff.1 h
    split at h
    · next hlen => cases h; exact hlen
    · exact ih h

/-- The tokens that the matchers find in a list of characters. A character where none of them
matches is skipped. -/
def charTokens (number : Nat) : List Char → Option (List Token)
  | [] => some []
  | c :: cs =>
    match h : firstMatch (· ≤ (c :: cs).length) ((c :: cs).map Char.toNat) matchers with
    | some (some (kind, len)) =>
      have := pos_of_firstMatch h
      (charTokens number ((c :: cs).drop len)).map fun tokens =>
        ⟨kind, String.ofList ((c :: cs).take len), number⟩ :: tokens
    | some none => charTokens number cs
    | none => none
termination_by cs => cs.length

/-! ### ASCII at the beginning -/

/-- The ASCII that a list begins with. -/
def ascii (s : List Nat) : List Nat :=
  s.takeWhile (· < 128)

theorem ascii_cons {c : Nat} (hc : c < 128) (s : List Nat) : ascii (c :: s) = c :: ascii s :=
  List.takeWhile_cons_of_pos (decide_eq_true hc)

theorem ascii_cons_of_le {c : Nat} (hc : 128 ≤ c) (s : List Nat) : ascii (c :: s) = [] :=
  List.takeWhile_cons_of_neg (by simpa using hc)

theorem length_ascii_le (s : List Nat) : (ascii s).length ≤ s.length := by
  have hpre : ascii s <+: s := List.takeWhile_prefix _
  exact hpre.length_le

theorem head?_ascii (s : List Nat) : (ascii s).head? = s.head?.filter (· < 128) := by
  cases s with
  | nil => rfl
  | cons c s => by_cases hc : c < 128 <;> simp [ascii, hc, Option.filter]

theorem ascii_drop {s : List Nat} {i : Nat} (hi : i ≤ (ascii s).length) :
    ascii (s.drop i) = (ascii s).drop i := by
  induction s generalizing i with
  | nil => simp [ascii]
  | cons c s ih =>
    cases i with
    | zero => rfl
    | succ i =>
      by_cases hc : c < 128
      · rw [ascii_cons hc] at hi ⊢
        exact ih (Nat.le_of_succ_le_succ hi)
      · rw [ascii_cons_of_le (Nat.le_of_not_lt hc)] at hi
        cases hi

theorem take_ascii {s : List Nat} {i : Nat} (hi : i ≤ (ascii s).length) :
    (ascii s).take i = s.take i := by
  obtain ⟨rest, hrest⟩ : ascii s <+: s := List.takeWhile_prefix _
  conv_rhs => rw [← hrest]
  exact (List.take_append_of_le_length hi).symm

theorem getElem?_ascii {s : List Nat} {i : Nat} (hi : i ≤ (ascii s).length) :
    (ascii s)[i]? = s[i]?.filter (· < 128) := by
  rw [← List.head?_drop, ← List.head?_drop, ← ascii_drop hi, head?_ascii]

theorem takeWhile_ascii {p : Nat → Bool} (hp : ∀ c, p c = true → c < 128) (s : List Nat) :
    (ascii s).takeWhile p = s.takeWhile p := by
  rw [ascii, List.takeWhile_takeWhile]
  refine congrArg (s.takeWhile ·) (funext fun c => Bool.eq_iff_iff.2 ?_)
  simpa using hp c

theorem lt_of_isPart {c : Nat} (h : isPart c = true) : c < 128 := by
  have hranges : ((97 ≤ c ∧ c ≤ 122 ∨ 65 ≤ c ∧ c ≤ 90) ∨ c = 95) ∨ 48 ≤ c ∧ c ≤ 57 := by
    simpa [isPart, isStart, isDigit] using h
  omega

theorem takeWhile_isPart_ascii (s : List Nat) :
    (ascii s).takeWhile isPart = s.takeWhile isPart :=
  takeWhile_ascii (fun _ => lt_of_isPart) s

theorem digits_ascii (s : List Nat) : digits (ascii s) = digits s := by
  rw [digits, digits, takeWhile_ascii]
  intro c hc
  exact lt_of_isPart (by simp [isPart, hc])

theorem digits_le (s : List Nat) : digits s ≤ (ascii s).length := by
  have hpre : (ascii s).takeWhile isDigit <+: ascii s := List.takeWhile_prefix _
  rw [← digits_ascii]
  exact hpre.length_le

/-! ### What the matchers read -/

/-- The matcher looks only at the ASCII that comes first: it cuts a list nowhere behind it and
matches no more. -/
def Matcher.ReadsAscii (m : Matcher) : Prop :=
  ∀ (ok : Nat → Bool) (s : List Nat), (∀ i ≤ (ascii s).length, ok i = true) →
    ∃ n ≤ (ascii s).length, m ok s = some n ∧ m (fun _ => true) (ascii s) = some n

theorem readsAscii_word : Matcher.ReadsAscii word := by
  intro ok s hok
  cases s with
  | nil => exact ⟨0, Nat.zero_le _, rfl, rfl⟩
  | cons c s =>
    by_cases hc : isStart c = true
    · have hlt : c < 128 := lt_of_isPart (by simp [isPart, hc])
      rw [ascii_cons hlt] at hok ⊢
      refine ⟨1 + (s.takeWhile isPart).length, ?_, ?_, ?_⟩
      · have hpre : (ascii s).takeWhile isPart <+: ascii s := List.takeWhile_prefix _
        rw [takeWhile_isPart_ascii] at hpre
        rw [List.length_cons, Nat.add_comm]
        exact Nat.succ_le_succ hpre.length_le
      · simp [word, hc, from?, hok 1 (by simp)]
      · simp [word, hc, from?, takeWhile_isPart_ascii]
    · refine ⟨0, Nat.zero_le _, by simp [word, hc], ?_⟩
      rw [word, head?_ascii]
      by_cases hlt : c < 128 <;> simp [Option.filter, hlt, hc]

theorem readsAscii_keyword : Matcher.ReadsAscii keyword := by
  intro ok s hok
  obtain ⟨n, hn, hword, hword'⟩ := readsAscii_word ok s hok
  refine ⟨if keywords.any fun kw => codes kw == s.take n then n else 0, ?_, ?_, ?_⟩
  · split
    · exact hn
    · exact Nat.zero_le _
  · simp [keyword, hword, upTo?, hok n hn]
  · simp [keyword, hword', upTo?, take_ascii hn]

theorem readsAscii_decimal : Matcher.ReadsAscii decimal := by
  intro ok s hok
  have hpoint : (ascii s)[digits s]? = some '.'.toNat ↔ s[digits s]? = some '.'.toNat := by
    rw [getElem?_ascii (digits_le s), Option.filter_eq_some_iff]
    exact and_iff_left_of_imp fun _ => by decide
  have hnone : (digits (ascii s) = 0 ∨ (ascii s)[digits (ascii s)]? ≠ some '.'.toNat) ↔
      digits s = 0 ∨ s[digits s]? ≠ some '.'.toNat := by
    rw [digits_ascii, ne_eq, ne_eq, hpoint]
  by_cases h : digits s = 0 ∨ s[digits s]? ≠ some '.'.toNat
  · exact ⟨0, Nat.zero_le _, if_pos h, if_pos (hnone.2 h)⟩
  · -- the point is ASCII too, so the digits behind it are still looked for there
    obtain ⟨-, hat⟩ := not_or.1 h
    have hlt : digits s + 1 ≤ (ascii s).length :=
      (List.getElem?_eq_some_iff.1 (hpoint.2 (not_not.1 hat))).1
    have hrest := digits_le (s.drop (digits s + 1))
    rw [ascii_drop hlt, List.length_drop] at hrest
    refine ⟨match digits (s.drop (digits s + 1)) with
      | 0 => 0
      | frac => digits s + 1 + frac, ?_, ?_, ?_⟩
    · split <;> omega
    · rw [decimal, if_neg h, from?, if_pos (hok _ hlt)]
      rfl
    · rw [decimal, if_neg (mt hnone.1 h), from?, if_pos rfl, digits_ascii, ← ascii_drop hlt]
      simp only [Option.bind_eq_bind, Option.bind_some, digits_ascii]
      rfl

theorem readsAscii_number : Matcher.ReadsAscii number := by
  intro ok s _
  exact ⟨digits s, digits_le s, rfl, congrArg some (digits_ascii s)⟩

theorem readsAscii_oneOf {set : String} (hset : ∀ c ∈ codes set, c < 128) :
    Matcher.ReadsAscii (oneOf set) := by
  intro ok s _
  cases s with
  | nil => exact ⟨0, Nat.zero_le _, rfl, rfl⟩
  | cons c s =>
    by_cases hc : c ∈ codes set
    · refine ⟨1, ?_, by simp [oneOf, hc], ?_⟩ <;> simp [ascii_cons (hset c hc), oneOf, hc]
    · refine ⟨0, Nat.zero_le _, by simp [oneOf, hc], ?_⟩
      rw [oneOf, head?_ascii]
      by_cases hlt : c < 128 <;> simp [Option.filter, hlt, hc]

theorem readsAscii_of_mem_matchers : ∀ p ∈ matchers, p.2.ReadsAscii := by
  simp only [matchers, List.forall_mem_cons]
  exact ⟨readsAscii_keyword, readsAscii_word, readsAscii_decimal, readsAscii_number,
    readsAscii_oneOf (by decide), readsAscii_oneOf (by decide), readsAscii_oneOf (by decide),
    by simp⟩

section FirstMatch

variable {ok : Nat → Bool} {s : List Nat} {ms : List (Token.Kind × Matcher)}

theorem firstMatch_ascii (hms : ∀ p ∈ ms, p.2.ReadsAscii)
    (hok : ∀ i ≤ (ascii s).length, ok i = true) :
    firstMatch ok s ms = firstMatch (fun _ => true) (ascii s) ms := by
  induction ms with
  | nil => rfl
  | cons p ms ih =>
    obtain ⟨hp, hms⟩ := List.forall_mem_cons.1 hms
    obtain ⟨n, -, hn, hn'⟩ := hp ok s hok
    simp only [firstMatch, hn, hn', Option.bind_eq_bind, Option.bind_some, ih hms]

theorem le_of_firstMatch (hms : ∀ p ∈ ms, p.2.ReadsAscii)
    (hok : ∀ i ≤ (ascii s).length, ok i = true) {kind : Token.Kind} {n : Nat}
    (h : firstMatch ok s ms = some (some (kind, n))) : n ≤ (ascii s).length := by
  induction ms with
  | nil => cases h
  | cons p ms ih =>
    obtain ⟨hp, hms⟩ := List.forall_mem_cons.1 hms
    obtain ⟨k, hk, hmatch, -⟩ := hp ok s hok
    simp only [firstMatch, hmatch, Option.bind_eq_bind, Option.bind_some] at h
    split at h
    · cases h
      exact hk
    · exact ih hms h

theorem firstMatch_cons_of_pos {m : Matcher} {n : Nat} (h : m ok s = some n) (hn : 0 < n)
    (kind : Token.Kind) : firstMatch ok s ((kind, m) :: ms) = some (some (kind, n)) := by
  simp [firstMatch, h, hn]

theorem firstMatch_cons_of_zero {m : Matcher} (h : m ok s = some 0) (kind : Token.Kind) :
    firstMatch ok s ((kind, m) :: ms) = firstMatch ok s ms := by
  simp [firstMatch, h]

end FirstMatch

/-! ### Matching characters

On the codes of characters, the matchers find what `firstSegment` finds. -/

theorem isStart_toNat (c : Char) : isStart c.toNat = isWordStart c := by
  have halpha : c.isAlpha = (c.isUpper || c.isLower) := rfl
  have hupper : c.isUpper = ('A'.toNat ≤ c.toNat && c.toNat ≤ 'Z'.toNat) := Bool.decide_and _ _
  have hlower : c.isLower = ('a'.toNat ≤ c.toNat && c.toNat ≤ 'z'.toNat) := rfl
  have hlow : (c == '_') = (c.toNat == '_'.toNat) :=
    Bool.eq_iff_iff.2 (by rw [beq_iff_eq, beq_iff_eq, Char.toNat_inj])
  rw [isStart, isWordStart, halpha, hupper, hlower, hlow, Bool.or_comm (_ && _)]

theorem isPart_toNat (c : Char) : isPart c.toNat = isWordPart c := by
  have hdigit : isDigit c.toNat = c.isDigit := rfl
  have halphanum : c.isAlphanum = (c.isAlpha || c.isDigit) := rfl
  rw [isPart, isStart_toNat, hdigit, isWordStart, isWordPart, halphanum, Bool.or_right_comm]

theorem digits_map (cs : List Char) :
    digits (cs.map Char.toNat) = (cs.takeWhile Char.isDigit).length := by
  rw [digits, List.takeWhile_map, List.length_map]
  rfl

/-- What the matchers find where the segment stands. -/
def found : Segment → Option (Token.Kind × Nat)
  | .lexeme kind text => some (kind, text.length)
  | .skipped _ => none

theorem toNat_injective : Function.Injective Char.toNat :=
  fun _ _ h => Char.toNat_inj.1 h

theorem any_keywords (cs : List Char) :
    (keywords.any fun kw => codes kw == cs.map Char.toNat) = true ↔
      String.ofList cs ∈ keywords := by
  have hcodes : ∀ kw ∈ keywords, codes kw = kw.toList.map Char.toNat := by decide
  simp only [List.any_eq_true, beq_iff_eq]
  constructor
  · rintro ⟨kw, hkw, h⟩
    rw [hcodes kw hkw, (List.map_injective_iff.2 toNat_injective).eq_iff] at h
    rwa [← h, String.ofList_toList]
  · intro h
    exact ⟨_, h, by rw [hcodes _ h, String.toList_ofList]⟩

theorem keyword_eq {s : List Nat} (text : List Char)
    (hword : word (fun _ => true) s = some text.length)
    (htake : s.take text.length = text.map Char.toNat) :
    keyword (fun _ => true) s =
      some (if String.ofList text ∈ keywords then text.length else 0) := by
  simp only [keyword, hword, upTo?, if_true, Option.bind_eq_bind, Option.bind_some, htake,
    any_keywords]
  rfl

theorem firstMatch_of_isWordStart {c : Char} (hc : isWordStart c = true) (cs : List Char) :
    firstMatch (fun _ => true) ((c :: cs).map Char.toNat) matchers =
      some (some (wordKind (c :: cs.takeWhile isWordPart),
        (c :: cs.takeWhile isWordPart).length)) := by
  obtain ⟨text, htext⟩ : ∃ text, text = c :: cs.takeWhile isWordPart := ⟨_, rfl⟩
  have hword : word (fun _ => true) ((c :: cs).map Char.toNat) = some text.length := by
    have hpart : isPart ∘ Char.toNat = isWordPart := funext isPart_toNat
    simp [word, isStart_toNat, hc, from?, List.takeWhile_map, hpart, htext, Nat.add_comm]
  have hpre : text <+: c :: cs := by
    rw [htext]
    exact List.cons_prefix_cons.2 ⟨rfl, List.takeWhile_prefix _⟩
  have hpos : 0 < text.length := by simp [htext]
  have hkeyword := keyword_eq text hword (by rw [← List.map_take, ← List.prefix_iff_eq_take.1 hpre])
  rw [← htext, matchers, wordKind]
  split
  · next h =>
    rw [if_pos h] at hkeyword
    rw [firstMatch_cons_of_pos hkeyword hpos]
  · next h =>
    rw [if_neg h] at hkeyword
    rw [firstMatch_cons_of_zero hkeyword, firstMatch_cons_of_pos hword hpos]

theorem firstMatch_of_not_isWordStart {c : Char} (hc : isWordStart c = false) (cs : List Char) :
    firstMatch (fun _ => true) ((c :: cs).map Char.toNat) matchers =
      firstMatch (fun _ => true) ((c :: cs).map Char.toNat) (matchers.drop 2) := by
  have hword : word (fun _ => true) ((c :: cs).map Char.toNat) = some 0 := by
    simp [word, isStart_toNat, hc]
  have hkeyword := keyword_eq [] hword rfl
  rw [List.length_nil, ite_self] at hkeyword
  rw [matchers, firstMatch_cons_of_zero hkeyword, firstMatch_cons_of_zero hword]
  rfl

/-- The digits behind a point that the characters begin with. -/
def fraction : List Char → List Char
  | '.' :: cs => cs.takeWhile Char.isDigit
  | _ => []

theorem decimal_append {ds rest : List Char} (hds : ds ≠ [])
    (hdigits : digits ((ds ++ rest).map Char.toNat) = ds.length) :
    decimal (fun _ => true) ((ds ++ rest).map Char.toNat) =
      some (if fraction rest = [] then 0 else ds.length + 1 + (fraction rest).length) := by
  have hat : ((ds ++ rest).map Char.toNat)[ds.length]? = rest.head?.map Char.toNat := by
    rw [List.getElem?_map, List.getElem?_append_right (Nat.le_refl _), Nat.sub_self,
      List.head?_eq_getElem?]
  unfold fraction
  split
  · next more =>
    have hsome : ¬ (ds.length = 0 ∨ ((ds ++ '.' :: more).map Char.toNat)[ds.length]? ≠
        some '.'.toNat) := by
      rw [hat]
      simpa using hds
    have hdrop : ((ds ++ '.' :: more).map Char.toNat).drop (ds.length + 1) =
        more.map Char.toNat := by
      rw [← List.map_drop, List.drop_add_one_eq_tail_drop, List.drop_left, List.tail_cons]
    rw [decimal, hdigits, if_neg hsome, from?, if_pos rfl, hdrop]
    simp only [Option.bind_eq_bind, Option.bind_some, digits_map]
    cases more.takeWhile Char.isDigit <;> rfl
  · next hpoint =>
    have hnone : ((ds ++ rest).map Char.toNat)[ds.length]? ≠ some '.'.toNat := by
      rw [hat]
      intro h
      obtain ⟨c, hhead, hc⟩ := Option.map_eq_some_iff.1 h
      obtain ⟨more, hrest⟩ := List.head?_eq_some_iff.1 hhead
      exact hpoint more (hrest.trans (by rw [Char.toNat_inj.1 hc]))
    rw [decimal, hdigits, if_pos (.inr hnone), if_pos rfl]

theorem found_numberSegment (ds rest : List Char) :
    found (numberSegment ds rest).1 =
      some (if fraction rest = [] then (.number, ds.length)
        else (.floatNumber, ds.length + 1 + (fraction rest).length)) := by
  unfold numberSegment
  split
  · next d rest =>
    split
    · next hd =>
      rw [fraction, List.takeWhile_cons_of_pos hd, if_neg (List.cons_ne_nil _ _), found]
      simp only [List.length_append, List.length_cons]
      rw [Nat.add_assoc ds.length, Nat.add_comm 1]
    · next hd => rw [fraction, List.takeWhile_cons_of_neg hd, if_pos rfl, found]
  · next hpoint =>
    have hnone : fraction rest = [] := by
      unfold fraction
      split
      · next more =>
        cases more with
        | nil => rfl
        | cons d more => exact absurd rfl (hpoint d more)
      · rfl
    rw [hnone, if_pos rfl, found]

theorem firstMatch_of_isDigit {c : Char} (hc : c.isDigit = true) (cs : List Char) :
    firstMatch (fun _ => true) ((c :: cs).map Char.toNat) matchers =
      some (found (numberSegment (c :: cs.takeWhile Char.isDigit)
        (cs.dropWhile Char.isDigit)).1) := by
  have hstart : isWordStart c = false := by
    rw [Bool.eq_false_iff]
    intro h
    rw [not_isDigit_of_isWordStart h] at hc
    cases hc
  obtain ⟨ds, hds⟩ : ∃ ds, ds = c :: cs.takeWhile Char.isDigit := ⟨_, rfl⟩
  obtain ⟨rest, hrest⟩ : ∃ rest, rest = cs.dropWhile Char.isDigit := ⟨_, rfl⟩
  have hcs : c :: cs = ds ++ rest := by
    rw [hds, hrest, List.cons_append, List.takeWhile_append_dropWhile]
  have hdigits : digits ((ds ++ rest).map Char.toNat) = ds.length := by
    rw [digits_map, ← hcs, List.takeWhile_cons_of_pos hc, hds]
  have hpos : 0 < ds.length := by simp [hds]
  have hdecimal := decimal_append (List.length_pos_iff.1 hpos) hdigits
  have hnumber : number (fun _ => true) ((ds ++ rest).map Char.toNat) = some ds.length :=
    congrArg some hdigits
  rw [firstMatch_of_not_isWordStart hstart, ← hds, ← hrest, hcs, found_numberSegment, matchers,
    List.drop_succ_cons, List.drop_succ_cons, List.drop_zero]
  split
  · next h =>
    rw [if_pos h] at hdecimal
    rw [firstMatch_cons_of_zero hdecimal, firstMatch_cons_of_pos hnumber hpos]
  · next h =>
    rw [if_neg h] at hdecimal
    rw [firstMatch_cons_of_pos hdecimal (by omega)]

theorem firstMatch_oneOf {set : String} (hset : codes set = set.toList.map Char.toNat) (c : Char)
    (cs : List Char) (kind : Token.Kind) (ms : List (Token.Kind × Matcher)) :
    firstMatch (fun _ => true) ((c :: cs).map Char.toNat) ((kind, oneOf set) :: ms) =
      if c ∈ set.toList then some (some (kind, 1))
      else firstMatch (fun _ => true) ((c :: cs).map Char.toNat) ms := by
  have hmem : c.toNat ∈ codes set ↔ c ∈ set.toList := by
    rw [hset, List.mem_map_of_injective toNat_injective]
  split
  · next hc => exact firstMatch_cons_of_pos (by simp [oneOf, hmem, hc]) Nat.one_pos kind
  · next hc => exact firstMatch_cons_of_zero (by simp [oneOf, hmem, hc]) kind

theorem firstMatch_of_other {c : Char} (hstart : isWordStart c = false) (hdigit : c.isDigit = false)
    (cs : List Char) :
    firstMatch (fun _ => true) ((c :: cs).map Char.toNat) matchers =
      some ((punctuation? c).map (·, 1)) := by
  have hdigits : digits ((c :: cs).map Char.toNat) = 0 := by
    rw [digits_map, List.takeWhile_cons_of_neg (by simp [hdigit]), List.length_nil]
  have hdecimal : decimal (fun _ => true) ((c :: cs).map Char.toNat) = some 0 :=
    if_pos (.inl hdigits)
  have hnumber : number (fun _ => true) ((c :: cs).map Char.toNat) = some 0 :=
    congrArg some hdigits
  have hassign : c ∈ "=".toList ↔ c = '=' := by simp
  have hoperator : c ∈ "+-*/".toList ↔ c = '+' ∨ c = '-' ∨ c = '*' ∨ c = '/' := by simp
  have hseparator : c ∈ ";()".toList ↔ c = ';' ∨ c = '(' ∨ c = ')' := by simp
  rw [firstMatch_of_not_isWordStart hstart, matchers, List.drop_succ_cons, List.drop_succ_cons,
    List.drop_zero, firstMatch_cons_of_zero hdecimal, firstMatch_cons_of_zero hnumber,
    firstMatch_oneOf (by decide), firstMatch_oneOf (by decide), firstMatch_oneOf (by decide)]
  simp only [punctuation?, hassign, hoperator, hseparator]
  split_ifs <;> rfl

theorem firstMatch_chars (c : Char) (cs : List Char) :
    firstMatch (fun _ => true) ((c :: cs).map Char.toNat) matchers =
      some (found (firstSegment c cs).1) := by
  rw [firstSegment]
  split
  · next hstart => exact firstMatch_of_isWordStart hstart cs
  next hstart =>
  split
  · next hdigit => exact firstMatch_of_isDigit hdigit cs
  next hdigit =>
  rw [firstMatch_of_other (Bool.eq_false_iff.2 hstart) (Bool.eq_false_iff.2 hdigit)]
  cases punctuation? c <;> rfl

/-- The matchers find the segment at the beginning of the characters in every list that begins with
the same ASCII. -/
theorem firstMatch_eq {ok : Nat → Bool} {s : List Nat} {c : Char} {cs : List Char}
    (hs : ascii s = ascii ((c :: cs).map Char.toNat))
    (hok : ∀ i ≤ (ascii s).length, ok i = true) :
    firstMatch ok s matchers = some (found (firstSegment c cs).1) := by
  rw [firstMatch_ascii readsAscii_of_mem_matchers hok, hs,
    ← firstMatch_ascii readsAscii_of_mem_matchers fun _ _ => rfl, firstMatch_chars]

theorem length_lexeme_le {c : Char} {cs text : List Char} {kind : Token.Kind}
    (h : (firstSegment c cs).1 = .lexeme kind text) :
    text.length ≤ (ascii ((c :: cs).map Char.toNat)).length := by
  have hfirst := firstMatch_chars c cs
  rw [h] at hfirst
  exact le_of_firstMatch readsAscii_of_mem_matchers (fun _ _ => rfl) hfirst

theorem lineTokens_cons (number : Nat) (c : Char) (cs : List Char) :
    lineTokens number (c :: cs) = ((firstSegment c cs).1.token? number).toList ++
      lineTokens number (firstSegment c cs).2 := by
  rw [lineTokens, scanLine_cons, List.filterMap_cons]
  cases (firstSegment c cs).1.token? number <;> rfl

theorem firstSegment_of_found {c : Char} {cs : List Char} {kind : Token.Kind} {n : Nat}
    (h : found (firstSegment c cs).1 = some (kind, n)) :
    firstSegment c cs = (.lexeme kind ((c :: cs).take n), (c :: cs).drop n) := by
  rcases hfirst : firstSegment c cs with ⟨segment, rest⟩
  have hchars := chars_append_of_firstSegment hfirst
  rw [hfirst] at h
  cases segment with
  | skipped d => cases h
  | lexeme kind text =>
    cases h
    rw [← hchars, Segment.chars, List.take_left, List.drop_left]

theorem firstSegment_of_not_found {c : Char} {cs : List Char}
    (h : found (firstSegment c cs).1 = none) : firstSegment c cs = (.skipped c, cs) := by
  rcases hfirst : firstSegment c cs with ⟨segment, rest⟩
  have hchars := chars_append_of_firstSegment hfirst
  rw [hfirst] at h
  cases segment with
  | lexeme kind text => cases h
  | skipped d =>
    obtain ⟨rfl, rfl⟩ := List.cons.inj hchars
    rfl

theorem charTokens_eq (number : Nat) (cs : List Char) :
    charTokens number cs = some (lineTokens number cs) := by
  have hok : ∀ (c : Char) (cs : List Char), ∀ i ≤ (ascii ((c :: cs).map Char.toNat)).length,
      decide (i ≤ (c :: cs).length) = true := by
    intro c cs i hi
    have hle := length_ascii_le ((c :: cs).map Char.toNat)
    rw [List.length_map] at hle
    exact decide_eq_true (Nat.le_trans hi hle)
  fun_induction charTokens number cs with
  | case1 => rw [lineTokens, scanLine_nil, List.filterMap_nil]
  | case2 c cs kind len hfirst _ ih =>
    rw [firstMatch_eq rfl (hok c cs)] at hfirst
    rw [ih, lineTokens_cons, firstSegment_of_found (Option.some.inj hfirst)]
    rfl
  | case3 c cs hfirst ih =>
    rw [firstMatch_eq rfl (hok c cs)] at hfirst
    rw [ih, lineTokens_cons, firstSegment_of_not_found (Option.some.inj hfirst)]
    rfl
  | case4 c cs hfirst =>
    rw [firstMatch_eq rfl (hok c cs)] at hfirst
    cases hfirst

end ByteScan

end ThreeAddress
