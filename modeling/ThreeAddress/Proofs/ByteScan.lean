import Mathlib.Logic.Relation
import ThreeAddress.Proofs.Matchers

/-!
# Scanning the bytes of a line

`ByteScan.loop` scans a line by the bytes of its encoding. What the matchers find in the bytes from
a place on gives the next token; if they find nothing, the character at the place is skipped. A
round of the loop fails when it cuts the text of the line where no character begins or ends, or its
bytes where the check `ok` forbids it.

The bytes of a text begin with the same ASCII as its characters (`ascii_codes_ofList`). So the bytes
lead to the segment that the characters lead to, and a round goes on behind it (`step_eq`). From
round to round the place stays a boundary of characters (`Scanning.step`), and the loop ends with
the tokens of the line (`Scanning.loop`).
-/

namespace ThreeAddress

namespace ByteScan

/-! ### The loop -/

/-- The text between two places of a line, which have to be boundaries of characters. -/
def textBetween? (line : String) (i j : Nat) : Option String :=
  if h : (⟨i⟩ : String.Pos.Raw).IsValid line ∧ (⟨j⟩ : String.Pos.Raw).IsValid line ∧ i ≤ j then
    some (line.extract (line.pos ⟨i⟩ h.1) (line.pos ⟨j⟩ h.2.1))
  else none

/-- The text from a place of a line on, which has to be a boundary of characters. -/
def textFrom? (line : String) (i : Nat) : Option String :=
  if h : (⟨i⟩ : String.Pos.Raw).IsValid line then
    some (line.sliceFrom (line.pos ⟨i⟩ h)).copy
  else none

structure State where
  tokens : List Token
  start : Nat
  pos : Nat
deriving Repr, DecidableEq

def State.initial : State :=
  ⟨[], 0, 0⟩

/-- One round of the loop, if the bytes of the line may be cut where `ok` says. -/
def step (ok : Nat → Bool) (line : String) (number : Nat) (s : State) : Option State := do
  let s := { s with start := s.pos }
  let rest ← from? ok (codes line) s.pos
  match ← firstMatch (fun i => ok (s.pos + i)) rest matchers with
  | some (kind, len) =>
    let s := { s with pos := s.pos + len }
    let text ← textBetween? line s.start s.pos
    return { s with tokens := s.tokens ++ [⟨kind, text, number⟩] }
  | none =>
    let text ← textFrom? line s.pos
    let c := text.toList.headD '\x00'
    return { s with pos := s.pos + max c.utf8Size 1 }

/-- A round leads further. -/
theorem pos_lt_of_step {ok : Nat → Bool} {line : String} {number : Nat} {s s' : State}
    (h : step ok line number s = some s') : s.pos < s'.pos := by
  obtain ⟨rest, -, h⟩ := Option.bind_eq_some_iff.1 h
  obtain ⟨first, hfirst, h⟩ := Option.bind_eq_some_iff.1 h
  cases first with
  | some p =>
    obtain ⟨text, -, h⟩ := Option.bind_eq_some_iff.1 h
    cases h
    exact Nat.lt_add_of_pos_right (pos_of_firstMatch hfirst)
  | none =>
    obtain ⟨text, -, h⟩ := Option.bind_eq_some_iff.1 h
    cases h
    exact Nat.lt_add_of_pos_right (Nat.le_max_right _ _)

/-- Rounds up to the end of the line, or until one of them fails. -/
def loop (ok : Nat → Bool) (line : String) (number : Nat) (s : State) : Option State :=
  if s.pos < line.utf8ByteSize then
    match h : step ok line number s with
    | some s' =>
      have := pos_lt_of_step h
      loop ok line number s'
    | none => none
  else some s
termination_by line.utf8ByteSize - s.pos

/-- The places where bytes can be cut. -/
def inBounds (line : String) (i : Nat) : Bool :=
  i ≤ line.utf8ByteSize

/-- The places where text can be cut. -/
def isBoundary (line : String) (i : Nat) : Bool :=
  (⟨i⟩ : String.Pos.Raw).isValid line

def Round (line : String) (number : Nat) (s s' : State) : Prop :=
  s.pos < line.utf8ByteSize ∧ step (inBounds line) line number s = some s'

/-! ### Bytes and characters -/

theorem codes_append (s t : String) : codes (s ++ t) = codes s ++ codes t := by
  simp [codes]

theorem length_codes (text : String) : (codes text).length = text.utf8ByteSize := by
  rw [codes, List.length_map]
  rfl

theorem codes_ofList (cs : List Char) :
    codes (String.ofList cs) =
      cs.flatMap fun c => (String.utf8EncodeChar c).map UInt8.toNat := by
  rw [codes, String.toByteArray_ofList, List.utf8Encode, List.toList_data_toByteArray,
    List.map_flatMap]

/-- A character of ASCII is one byte, and any other begins with a byte that is not ASCII. -/
theorem utf8EncodeChar_cases (c : Char) :
    (c.toNat < 128 ∧ (String.utf8EncodeChar c).map UInt8.toNat = [c.toNat]) ∨
      (128 ≤ c.toNat ∧ ∃ b bs, (String.utf8EncodeChar c).map UInt8.toNat = b :: bs ∧ 128 ≤ b) := by
  have hbyte : ∀ n, n < 256 → (UInt8.ofNat n).toNat = n := by
    intro n hn
    rw [UInt8.toNat_ofNat', Nat.mod_eq_of_lt hn]
  simp only [String.utf8EncodeChar, Char.toNat_val]
  split
  · next h => exact .inl ⟨by omega, by rw [List.map_singleton, hbyte _ (by omega)]⟩
  next h =>
  -- two, three or four bytes
  refine .inr ⟨by omega, ?_⟩
  split
  · exact ⟨_, _, rfl, by rw [hbyte _ (by omega)]; omega⟩
  split
  · exact ⟨_, _, rfl, by rw [hbyte _ (by omega)]; omega⟩
  · exact ⟨_, _, rfl, by rw [hbyte _ (by omega)]; omega⟩

/-- The bytes of a text begin with the same ASCII as its characters. -/
theorem ascii_codes_ofList (cs : List Char) :
    ascii (codes (String.ofList cs)) = ascii (cs.map Char.toNat) := by
  rw [codes_ofList]
  induction cs with
  | nil => rfl
  | cons c cs ih =>
    rw [List.flatMap_cons, List.map_cons]
    rcases utf8EncodeChar_cases c with ⟨hc, hbytes⟩ | ⟨hc, b, bs, hbytes, hb⟩
    · rw [hbytes, List.singleton_append, ascii_cons hc, ascii_cons hc, ih]
    · rw [hbytes, List.cons_append, ascii_cons_of_le hb, ascii_cons_of_le hc]

/-- How many bytes characters take. -/
def byteLength (cs : List Char) : Nat :=
  (String.ofList cs).utf8ByteSize

theorem byteLength_toList (line : String) : byteLength line.toList = line.utf8ByteSize := by
  rw [byteLength, String.ofList_toList]

theorem byteLength_append (cs ds : List Char) :
    byteLength (cs ++ ds) = byteLength cs + byteLength ds := by
  rw [byteLength, String.ofList_append, String.utf8ByteSize_append]
  rfl

theorem byteLength_singleton (c : Char) : byteLength [c] = c.utf8Size := by
  rw [byteLength, ← String.singleton_eq_ofList, String.utf8ByteSize_singleton]

theorem byteLength_cons (c : Char) (cs : List Char) :
    byteLength (c :: cs) = c.utf8Size + byteLength cs := by
  rw [← List.singleton_append, byteLength_append, byteLength_singleton]

theorem byteLength_pos {cs : List Char} (h : cs ≠ []) : 0 < byteLength cs := by
  cases cs with
  | nil => exact absurd rfl h
  | cons c cs =>
    rw [byteLength_cons]
    exact Nat.add_pos_left c.utf8Size_pos _

theorem byteLength_take {cs : List Char} {i : Nat} (hi : i ≤ (ascii (cs.map Char.toNat)).length) :
    byteLength (cs.take i) = i := by
  induction cs generalizing i with
  | nil =>
    cases hi
    rfl
  | cons c cs ih =>
    cases i with
    | zero => rfl
    | succ i =>
      by_cases hc : c.toNat < 128
      · rw [List.map_cons, ascii_cons hc] at hi
        have hsize : c.utf8Size = 1 := by
          rw [Char.utf8Size_eq_one_iff, UInt32.le_iff_toNat_le]
          exact Nat.le_of_lt_succ hc
        rw [List.take_succ_cons, byteLength_cons, hsize, ih (Nat.le_of_succ_le_succ hi),
          Nat.add_comm]
      · rw [List.map_cons, ascii_cons_of_le (Nat.le_of_not_lt hc)] at hi
        cases hi

theorem byteLength_lexeme {c : Char} {cs text : List Char} {kind : Token.Kind}
    (h : (firstSegment c cs).1 = .lexeme kind text) : byteLength text = text.length := by
  have hchars := chars_firstSegment c cs
  have htake := byteLength_take (length_lexeme_le h)
  rwa [← hchars, h, Segment.chars, List.take_left] at htake

/-! ### Places in a line -/

section Places

variable {line : String} {pre mid rest : List Char}

theorem eq_append_of_toList (hline : line.toList = pre ++ rest) :
    line = String.ofList pre ++ String.ofList rest := by
  rw [← String.ofList_append, ← hline, String.ofList_toList]

theorem drop_codes (hline : line.toList = pre ++ rest) :
    (codes line).drop (byteLength pre) = codes (String.ofList rest) := by
  rw [eq_append_of_toList hline, codes_append, byteLength, ← length_codes, List.drop_left]

theorem isValid_byteLength (hline : line.toList = pre ++ rest) :
    (⟨byteLength pre⟩ : String.Pos.Raw).IsValid line :=
  String.Pos.Raw.isValid_iff_exists_append.2 ⟨_, _, eq_append_of_toList hline, rfl⟩

/-- Between characters of ASCII there is a boundary at every byte. -/
theorem isValid_byteLength_add (hline : line.toList = pre ++ rest) {i : Nat}
    (hi : i ≤ (ascii (rest.map Char.toNat)).length) :
    (⟨byteLength pre + i⟩ : String.Pos.Raw).IsValid line := by
  have hsplit : line.toList = (pre ++ rest.take i) ++ rest.drop i := by
    rw [hline, List.append_assoc, List.take_append_drop]
  have hvalid := isValid_byteLength hsplit
  rwa [byteLength_append, byteLength_take hi] at hvalid

theorem splits_byteLength (hline : line.toList = pre ++ rest) :
    (line.pos ⟨byteLength pre⟩ (isValid_byteLength hline)).Splits (String.ofList pre)
      (String.ofList rest) :=
  ⟨eq_append_of_toList hline, rfl⟩

theorem textFrom?_byteLength (hline : line.toList = pre ++ rest) :
    textFrom? line (byteLength pre) = some (String.ofList rest) := by
  rw [textFrom?, dif_pos (isValid_byteLength hline), (splits_byteLength hline).copy_sliceFrom_eq]

theorem textBetween?_byteLength (hline : line.toList = pre ++ (mid ++ rest)) :
    textBetween? line (byteLength pre) (byteLength (pre ++ mid)) = some (String.ofList mid) := by
  have hline' : line.toList = (pre ++ mid) ++ rest := by rw [hline, List.append_assoc]
  have hle : byteLength pre ≤ byteLength (pre ++ mid) := by
    rw [byteLength_append]
    exact Nat.le_add_right _ _
  have hstart := splits_byteLength hline
  have hend := splits_byteLength hline'
  rw [String.ofList_append] at hstart hend
  obtain ⟨h, hcopy⟩ := String.copy_slice_eq_iff_splits.2 ⟨_, _, hstart, hend⟩
  rw [textBetween?, dif_pos ⟨isValid_byteLength hline, isValid_byteLength hline', hle⟩,
    String.extract_eq_copy_slice _ _ h, hcopy]

end Places

/-! ### Rounds -/

/-- The state when the segment at its place is behind it. -/
def State.after (s : State) (number : Nat) (segment : Segment) : State :=
  ⟨s.tokens ++ (segment.token? number).toList, s.pos, s.pos + byteLength segment.chars⟩

section Rounds

variable {ok : Nat → Bool} {line : String} {number : Nat} {s : State}

/-- Where characters are left, a round goes on behind the segment that they begin with. -/
theorem step_eq {pre cs : List Char} {c : Char}
    (hok : ∀ i, (⟨i⟩ : String.Pos.Raw).IsValid line → ok i = true)
    (hline : line.toList = pre ++ c :: cs) (hpos : s.pos = byteLength pre) :
    step ok line number s = some (s.after number (firstSegment c cs).1) := by
  have hascii := ascii_codes_ofList (c :: cs)
  have hcut : ∀ i ≤ (ascii ((c :: cs).map Char.toNat)).length, ok (s.pos + i) = true := by
    intro i hi
    rw [hpos]
    exact hok _ (isValid_byteLength_add hline hi)
  have hfrom : from? ok (codes line) s.pos = some (codes (String.ofList (c :: cs))) := by
    have hstart : ok s.pos = true := hcut 0 (Nat.zero_le _)
    rw [from?, if_pos hstart, hpos, drop_codes hline]
  have hfirst : firstMatch (fun i => ok (s.pos + i)) (codes (String.ofList (c :: cs))) matchers =
      some (found (firstSegment c cs).1) :=
    firstMatch_eq hascii (by rwa [hascii])
  have hchars := chars_firstSegment c cs
  simp only [step, hfrom, hfirst, Option.bind_eq_bind, Option.bind_some]
  cases hsegment : (firstSegment c cs).1 with
  | lexeme kind text =>
    rw [hsegment, Segment.chars] at hchars
    have hlen := byteLength_lexeme hsegment
    have htext : textBetween? line s.pos (s.pos + text.length) = some (String.ofList text) := by
      rw [← hlen, hpos, ← byteLength_append]
      exact textBetween?_byteLength (hchars ▸ hline)
    simp [found, htext, State.after, Segment.token?, Segment.chars, hlen]
  | skipped d =>
    rw [hsegment, Segment.chars] at hchars
    obtain ⟨rfl, -⟩ := List.cons.inj hchars
    have htext : textFrom? line s.pos = some (String.ofList (d :: cs)) := by
      rw [hpos, textFrom?_byteLength hline]
    have hsize : max d.utf8Size 1 = d.utf8Size := max_eq_left d.utf8Size_pos
    simp [found, htext, State.after, Segment.token?, Segment.chars, hsize, byteLength_singleton]

/-- The place is a boundary of characters, and the tokens of what stands behind it are those that
are still missing. -/
def Scanning (line : String) (number : Nat) (s : State) : Prop :=
  ∃ pre rest, line.toList = pre ++ rest ∧ s.pos = byteLength pre ∧
    s.tokens ++ lineTokens number rest = lineTokens number line.toList

theorem scanning_initial (line : String) (number : Nat) : Scanning line number .initial :=
  ⟨[], line.toList, rfl, rfl, rfl⟩

namespace Scanning

theorem isValid (h : Scanning line number s) : (⟨s.pos⟩ : String.Pos.Raw).IsValid line := by
  obtain ⟨pre, rest, hline, hpos, -⟩ := h
  rw [hpos]
  exact isValid_byteLength hline

/-- Before the end of the line a round succeeds if the bytes may be cut at boundaries of
characters. -/
theorem step (h : Scanning line number s) (hlt : s.pos < line.utf8ByteSize) :
    ∃ s', Scanning line number s' ∧ ∀ ok : Nat → Bool,
      (∀ i, (⟨i⟩ : String.Pos.Raw).IsValid line → ok i = true) →
        ByteScan.step ok line number s = some s' := by
  obtain ⟨pre, rest, hline, hpos, htokens⟩ := h
  cases rest with
  | nil =>
    rw [hpos, ← byteLength_toList, hline, List.append_nil] at hlt
    exact absurd hlt (Nat.lt_irrefl _)
  | cons c cs =>
    refine ⟨s.after number (firstSegment c cs).1, ⟨pre ++ (firstSegment c cs).1.chars,
      (firstSegment c cs).2, ?_, ?_, ?_⟩, fun ok hok => step_eq hok hline hpos⟩
    · rw [hline, List.append_assoc, chars_firstSegment]
    · rw [State.after, hpos, byteLength_append]
    · rw [← htokens, lineTokens_cons, State.after, List.append_assoc]

theorem finished (h : Scanning line number s) (hge : ¬ s.pos < line.utf8ByteSize) :
    s.pos = line.utf8ByteSize ∧ s.tokens = lineTokens number line.toList := by
  obtain ⟨pre, rest, hline, hpos, htokens⟩ := h
  have hsize : line.utf8ByteSize = s.pos + byteLength rest := by
    rw [← byteLength_toList, hline, byteLength_append, hpos]
  have hrest : rest = [] := by
    by_contra hne
    have hlong := byteLength_pos hne
    omega
  subst hrest
  refine ⟨hsize.symm, ?_⟩
  rwa [lineTokens, scanLine_nil, List.filterMap_nil, List.append_nil] at htokens

theorem loop (h : Scanning line number s)
    (hok : ∀ i, (⟨i⟩ : String.Pos.Raw).IsValid line → ok i = true) :
    ∃ s', ByteScan.loop ok line number s = some s' ∧ s'.pos = line.utf8ByteSize ∧
      s'.tokens = lineTokens number line.toList := by
  fun_induction ByteScan.loop ok line number s with
  | case1 s hlt after hafter _ ih =>
    obtain ⟨s', h', hstep⟩ := h.step hlt
    rw [hstep ok hok] at hafter
    cases hafter
    exact ih h'
  | case2 s hlt hnone =>
    obtain ⟨s', -, hstep⟩ := h.step hlt
    rw [hstep ok hok] at hnone
    cases hnone
  | case3 s hge => exact ⟨s, rfl, h.finished hge⟩

end Scanning

theorem inBounds_of_isValid (i : Nat) (h : (⟨i⟩ : String.Pos.Raw).IsValid line) :
    inBounds line i = true :=
  decide_eq_true h.le_utf8ByteSize

theorem isBoundary_of_isValid (i : Nat) (h : (⟨i⟩ : String.Pos.Raw).IsValid line) :
    isBoundary line i = true :=
  String.Pos.Raw.isValid_eq_true_iff.2 h

theorem scanning_of_rounds (h : Relation.ReflTransGen (Round line number) .initial s) :
    Scanning line number s := by
  induction h with
  | refl => exact scanning_initial line number
  | tail _ hround ih =>
    obtain ⟨hlt, hstep⟩ := hround
    obtain ⟨s', h', hstep'⟩ := ih.step hlt
    rw [hstep' _ inBounds_of_isValid] at hstep
    exact Option.some.inj hstep ▸ h'

end Rounds

/-- After any number of rounds over the bytes of a line, the place is a boundary of characters.
Unless it is the end of the line another round succeeds, and leads further; it would even if the
bytes, like the text, could be cut at boundaries of characters only. So the loop ends, at the end of
the line. Its tokens are those that the same matchers find in the characters of the line, and these
are the tokens of the line. -/
theorem agrees_with_characters (line : String) (number : Nat) :
    (∀ s, Relation.ReflTransGen (Round line number) .initial s →
      (⟨s.pos⟩ : String.Pos.Raw).IsValid line ∧
      (s.pos < line.utf8ByteSize → ∃ s', step (inBounds line) line number s = some s' ∧
        step (isBoundary line) line number s = some s' ∧ s.pos < s'.pos)) ∧
    ∃ s, loop (inBounds line) line number .initial = some s ∧ s.pos = line.utf8ByteSize ∧
      charTokens number line.toList = some s.tokens ∧ s.tokens = lineTokens number line.toList := by
  constructor
  · intro s hs
    have h := scanning_of_rounds hs
    refine ⟨h.isValid, fun hlt => ?_⟩
    obtain ⟨s', -, hstep⟩ := h.step hlt
    have hround := hstep _ inBounds_of_isValid
    exact ⟨s', hround, hstep _ isBoundary_of_isValid, pos_lt_of_step hround⟩
  · obtain ⟨s, hloop, hpos, htokens⟩ := (scanning_initial line number).loop inBounds_of_isValid
    exact ⟨s, hloop, hpos, htokens ▸ charTokens_eq number line.toList, htokens⟩

end ByteScan

end ThreeAddress