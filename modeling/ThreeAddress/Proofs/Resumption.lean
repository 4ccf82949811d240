import ThreeAddress.Proofs.Lookahead
import ThreeAddress.Proofs.Readers

/-!
# Parsing again from where it stopped

A cursor stays at the offending token when parsing fails, so it can be parsed from again, as from
the start of the tokens that are left. Each time the cursor moves on, or it has come to rest: at the
end of the tokens, or at a token that opens no statement, the only place where parsing fails without
taking a token (`Cursor.In.parse_stalled`). So parsing as often as there are tokens brings it to
rest (`Cursor.In.rests_or_advances`).
-/

namespace ThreeAddress

/-! ### Failing without taking a token -/

theorem Reading.Within.rest_ne_cons {α : Type} {r : Reading α} {ts : List Token} {f : Failure}
    (hr : r.Within ts) (h : r = .error f) (t : Token) : f.rest ≠ t :: ts := by
  rw [h] at hr
  intro hrest
  have hlen := List.IsSuffix.length_le hr
  rw [hrest, List.length_cons] at hlen
  omega

theorem expected_of_readStatement_stays {ts : List Token} {f : Failure}
    (h : readStatement ts = .error f) (hrest : f.rest = ts) : f.expected = .statement := by
  unfold readStatement at h
  split at h
  · cases h; rfl
  next t ts =>
  split at h
  · split at h
    · exact absurd hrest ((within_readDeclaration _ ts).rest_ne_cons h t)
    · exact absurd hrest ((within_readPrint ts).rest_ne_cons h t)
  · split at h
    · cases h; rfl
    next u rest =>
    split at h
    · have hwithin := (within_readAssignment t.text rest).mono (List.suffix_cons u rest)
      exact absurd hrest (hwithin.rest_ne_cons h t)
    · cases h; rfl
  · cases h; rfl

/-- Reading fails without taking a token only where a statement is expected. -/
theorem expected_of_readStatements_stays {ts : List Token} {f : Failure}
    (h : readStatements ts = .error f) (hrest : f.rest = ts) : f.expected = .statement := by
  obtain ⟨read, bad, stmts, rfl, -, -, hbad⟩ := readStatements_eq_error_iff.1 h
  have hwithin := within_readStatement bad
  rw [hbad] at hwithin
  have hlen := List.IsSuffix.length_le hwithin
  rw [hrest, List.length_append] at hlen
  obtain rfl : read = [] := List.eq_nil_of_length_eq_zero (by omega)
  exact expected_of_readStatement_stays hbad hrest

/-! ### One call -/

namespace Cursor

/-- Parsing from a cursor is parsing the tokens that are left, with positions counted from the
start. -/
theorem parse_fst (c : Cursor) :
    c.parse.1 = (ThreeAddress.parse c.rest).mapError fun e => { e with pos := c.pos + e.pos } := by
  unfold ThreeAddress.parse parse start
  cases readStatements c.rest with
  | ok stmts => rfl
  | error f => simp [error, advanceTo, Except.mapError]

/-- The cursor is a place in the tokens `ts`. -/
structure In (ts : List Token) (c : Cursor) : Prop where
  pos_le : c.pos ≤ ts.length
  rest_eq : c.rest = ts.drop c.pos

variable {ts : List Token} {c : Cursor}

theorem in_start (ts : List Token) : (start ts).In ts :=
  ⟨Nat.zero_le _, rfl⟩

theorem In.length_rest (h : c.In ts) : c.pos + c.rest.length = ts.length := by
  rw [h.rest_eq, List.length_drop]
  exact Nat.add_sub_cancel' h.pos_le

theorem In.eq_of_pos_eq {d : Cursor} (hc : c.In ts) (hd : d.In ts) (h : c.pos = d.pos) : c = d := by
  have hrest : c.rest = d.rest := by rw [hc.rest_eq, hd.rest_eq, h]
  cases c
  cases d
  cases h
  cases hrest
  rfl

theorem In.parse (h : c.In ts) : c.parse.2.In ts := by
  have hlen := h.length_rest
  rcases c.parse_cases with ⟨stmts, -, hparse⟩ | ⟨before, f, hrest, -, hparse⟩
  · rw [hparse, hlen]
    exact ⟨Nat.le_refl _, (List.drop_length).symm⟩
  · rw [hparse]
    rw [hrest, List.length_append] at hlen
    refine ⟨by simp only; omega, ?_⟩
    simp only
    rw [← List.drop_drop, ← h.rest_eq, hrest, List.drop_left]

theorem pos_of_parse_eq_error {e : SyntaxError} (h : c.parse.1 = .error e) :
    c.parse.2.pos = e.pos := by
  rcases c.parse_cases with ⟨stmts, -, hparse⟩ | ⟨before, f, -, -, hparse⟩
  · rw [hparse] at h
    cases h
  · rw [hparse] at h ⊢
    cases h
    rfl

theorem In.pos_of_parse_eq_ok (hc : c.In ts) {p : Program} (h : c.parse.1 = .ok p) :
    c.parse.2.pos = ts.length := by
  rcases c.parse_cases with ⟨stmts, -, hparse⟩ | ⟨before, f, -, -, hparse⟩
  · rw [hparse]
    exact hc.length_rest
  · rw [hparse] at h
    cases h

theorem pos_le_pos_parse (c : Cursor) : c.pos ≤ c.parse.2.pos := by
  rcases c.parse_cases with ⟨stmts, -, hparse⟩ | ⟨before, f, -, -, hparse⟩
  · rw [hparse]
    exact Nat.le_add_right _ _
  · rw [hparse]
    exact Nat.le_add_right _ _

/-- If the cursor does not move and tokens are left, a statement was expected there. -/
theorem In.parse_stalled (h : c.In ts) (hpos : c.parse.2.pos = c.pos) (hlt : c.pos < ts.length) :
    ∃ e, c.parse.1 = .error e ∧ e.expected = "Expect statement." := by
  have hlen := h.length_rest
  rcases c.parse_cases with ⟨stmts, -, hparse⟩ | ⟨before, f, hrest, hread, hparse⟩
  · rw [hparse] at hpos
    simp only at hpos
    omega
  · rw [hparse] at hpos
    obtain rfl : before = [] := List.eq_nil_of_length_eq_zero (by simp only at hpos; omega)
    refine ⟨_, by rw [hparse], ?_⟩
    rw [expected_of_readStatements_stays hread hrest.symm]
    rfl

theorem In.parse_of_pos_eq (h : c.In ts) (hpos : c.pos = ts.length) : c.parse = (.ok ⟨[]⟩, c) := by
  have hrest : c.rest = [] := by rw [h.rest_eq, hpos, List.drop_length]
  obtain ⟨pos, rest⟩ := c
  cases hrest
  simp [Cursor.parse, advanceTo]

/-! ### Many calls -/

/-- The cursor after parsing `n` times. -/
def after (c : Cursor) : Nat → Cursor
  | 0 => c
  | n + 1 => c.parse.2.after n

theorem after_succ (c : Cursor) (n : Nat) : c.after (n + 1) = (c.after n).parse.2 := by
  induction n generalizing c with
  | zero => rfl
  | succ n ih => exact ih c.parse.2

theorem parses_eq (c : Cursor) (n : Nat) :
    c.parses n = (List.range n).map fun k => (c.after k).parse.1 := by
  induction n generalizing c with
  | zero => rfl
  | succ n ih =>
    rw [parses, ih, List.range_succ_eq_map, List.map_cons, List.map_map]
    rfl

theorem In.after (h : c.In ts) (n : Nat) : (c.after n).In ts := by
  induction n with
  | zero => exact h
  | succ n ih =>
    rw [after_succ]
    exact ih.parse

/-- A cursor that does not move stays where it is. -/
theorem after_of_parse_eq {k : Nat} (h : (c.after k).parse.2 = c.after k) {n : Nat} (hn : k ≤ n) :
    c.after n = c.after k := by
  induction hn with
  | refl => rfl
  | step _ ih => rw [after_succ, ih, h]

/-- In `n` calls the cursor has moved `n` times, or it has come to rest. -/
theorem In.rests_or_advances (h : c.In ts) (n : Nat) :
    c.pos + n ≤ (c.after n).pos ∨ (c.after n).parse.2 = c.after n := by
  induction n with
  | zero => exact .inl (Nat.le_refl _)
  | succ n ih =>
    rcases ih with hpos | hrest
    · rcases Nat.lt_or_eq_of_le (c.after n).pos_le_pos_parse with hlt | heq
      · exact .inl (by rw [after_succ]; omega)
      · have hfix := (h.after n).parse.eq_of_pos_eq (h.after n) heq.symm
        exact .inr (by rw [after_succ, hfix, hfix])
    · exact .inr (by rw [after_succ, hrest, hrest])

/-- After as many calls as there are tokens the cursor has come to rest, at the end of the tokens or
where a statement is expected. -/
theorem In.rests (h : c.In ts) :
    (c.after ts.length).parse.2 = c.after ts.length ∧
      ((c.after ts.length).parse.1 = .ok ⟨[]⟩ ∨
        ∃ e, (c.after ts.length).parse.1 = .error e ∧ e.expected = "Expect statement.") := by
  have hin := h.after ts.length
  rcases Nat.lt_or_eq_of_le hin.pos_le with hlt | heq
  · rcases h.rests_or_advances ts.length with hpos | hrest
    · omega
    · exact ⟨hrest, .inr (hin.parse_stalled (congrArg pos hrest) hlt)⟩
  · rw [hin.parse_of_pos_eq heq]
    exact ⟨rfl, .inl rfl⟩

end Cursor

/-- Where the cursor is when the tokens `ts` have been parsed `k` times. -/
def positionAfter (ts : List Token) (k : Nat) : Nat :=
  ((Cursor.start ts).after k).pos

/-- The result of parsing the tokens `ts` once more, after `k` times. -/
def resultAfter (ts : List Token) (k : Nat) : Except SyntaxError Program :=
  ((Cursor.start ts).after k).parse.1

/-- Parsing again and again. Each time the result is that of the tokens that are left, with the
positions counted from the start; the cursor is then at the error or at the end, and never moves
back. Where it does not move and tokens are left, a statement is expected, and all later results are
the same error. After as many times as there are tokens the results do not change any more. -/
theorem parse_repeatedly (ts : List Token) :
    (∀ n, (Cursor.start ts).parses n = (List.range n).map (resultAfter ts)) ∧
      positionAfter ts 0 = 0 ∧
      (∀ k, resultAfter ts k = (parse (ts.drop (positionAfter ts k))).mapError
          fun e => { e with pos := positionAfter ts k + e.pos }) ∧
      (∀ k e, resultAfter ts k = .error e → positionAfter ts (k + 1) = e.pos) ∧
      (∀ k p, resultAfter ts k = .ok p → positionAfter ts (k + 1) = ts.length) ∧
      (∀ k, positionAfter ts k ≤ positionAfter ts (k + 1)) ∧
      (∀ k, positionAfter ts (k + 1) = positionAfter ts k → positionAfter ts k < ts.length →
        ∃ e, e.expected = "Expect statement." ∧ ∀ n, k ≤ n → resultAfter ts n = .error e) ∧
      ∃ r, (∀ n, ts.length ≤ n → resultAfter ts n = r) ∧
        (r = .ok ⟨[]⟩ ∨ ∃ e, r = .error e ∧ e.expected = "Expect statement.") := by
  have hin : ∀ k, ((Cursor.start ts).after k).In ts := (Cursor.in_start ts).after
  have hnext : ∀ k, positionAfter ts (k + 1) = ((Cursor.start ts).after k).parse.2.pos :=
    fun k => congrArg Cursor.pos (Cursor.after_succ _ k)
  refine ⟨Cursor.parses_eq _, rfl, fun k => ?_, fun k e he => ?_, fun k p hp => ?_, fun k => ?_,
    fun k hpos hlt => ?_, resultAfter ts ts.length, fun n hn => ?_, (Cursor.in_start ts).rests.2⟩
  · rw [resultAfter, Cursor.parse_fst, (hin k).rest_eq]
    rfl
  · rw [hnext]
    exact Cursor.pos_of_parse_eq_error he
  · rw [hnext]
    exact (hin k).pos_of_parse_eq_ok hp
  · rw [hnext]
    exact Cursor.pos_le_pos_parse _
  · rw [hnext] at hpos
    obtain ⟨e, he, hexpected⟩ := (hin k).parse_stalled hpos hlt
    have hfix := (hin k).parse.eq_of_pos_eq (hin k) hpos
    refine ⟨e, hexpected, fun n hn => ?_⟩
    rw [resultAfter, Cursor.after_of_parse_eq hfix hn, he]
  · rw [resultAfter, Cursor.after_of_parse_eq (Cursor.in_start ts).rests.1 hn]
    rfl

/-- The second call stops where the first one did, at a token that opens no statement. -/
theorem parse_repeatedly_stalls :
    resultAfter (tokenize "int a = ;") 0 = .error
        ⟨3, some ⟨.separator, ";", 1⟩, "Expect expression."⟩ ∧
      ∀ n, 1 ≤ n → resultAfter (tokenize "int a = ;") n = .error
        ⟨3, some ⟨.separator, ";", 1⟩, "Expect statement."⟩ := by
  have hsecond : resultAfter (tokenize "int a = ;") 1 = .error
      ⟨3, some ⟨.separator, ";", 1⟩, "Expect statement."⟩ := by
    decide +kernel
  obtain ⟨-, -, -, -, -, -, hstalls, -⟩ := parse_repeatedly (tokenize "int a = ;")
  obtain ⟨e, -, hlater⟩ := hstalls 1 (by decide +kernel) (by decide +kernel)
  refine ⟨by decide +kernel, fun n hn => ?_⟩
  rw [hlater n hn, ← hlater 1 (Nat.le_refl 1), hsecond]

end ThreeAddress
