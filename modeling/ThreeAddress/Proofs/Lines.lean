import ThreeAddress.Text.Line

/-!
# Lines and their places

A line feed divides a text: what stands before it and behind it is divided into lines on its own
(`rawLines_append_cons`), and the number of lines in front of a place is the number of line feeds
there (`length_rawLines_append_newline`). Line number `n`, counted from zero, starts behind `n` line
feeds and contains none (`exists_of_getElem?_lines`). Texts without line feeds (`IsLine`) can be
told from the text that `unlines` makes of them (`unlines_injective`).
-/

namespace ThreeAddress.Text

/-! ### Lines with their endings -/

theorem rawLines_eq_nil_iff {s : List Char} : rawLines s = [] ↔ s = [] := by
  constructor
  · intro h
    rw [← flatten_rawLines s, h]
    rfl
  · rintro rfl
    rfl

theorem consLine_newline (lines : List (List Char)) : consLine '\n' lines = ['\n'] :: lines :=
  if_pos rfl

theorem consLine_of_ne {c : Char} (hc : c ≠ '\n') (line : List Char) (lines : List (List Char)) :
    consLine c (line :: lines) = (c :: line) :: lines :=
  if_neg hc

theorem consLine_append (c : Char) {lines : List (List Char)} (h : lines ≠ [])
    (more : List (List Char)) : consLine c (lines ++ more) = consLine c lines ++ more := by
  obtain ⟨line, lines, rfl⟩ := List.exists_cons_of_ne_nil h
  unfold consLine
  split <;> rfl

theorem rawLines_append_cons (a b : List Char) :
    rawLines (a ++ '\n' :: b) = rawLines (a ++ ['\n']) ++ rawLines b := by
  induction a with
  | nil => rfl
  | cons c a ih =>
    have hne : rawLines (a ++ ['\n']) ≠ [] := by simp [rawLines_eq_nil_iff]
    rw [List.cons_append, rawLines_cons, ih, consLine_append c hne, ← rawLines_cons,
      List.cons_append]

theorem length_rawLines_append_newline (a : List Char) :
    (rawLines (a ++ ['\n'])).length = a.count '\n' + 1 := by
  induction a with
  | nil => rfl
  | cons c a ih =>
    obtain ⟨line, lines, hlines⟩ : ∃ line lines, rawLines (a ++ ['\n']) = line :: lines :=
      List.exists_cons_of_ne_nil (by simp [rawLines_eq_nil_iff])
    rw [List.cons_append, rawLines_cons]
    by_cases hc : c = '\n'
    · simp [consLine, hc, ih]
    · rw [hlines] at ih ⊢
      rw [consLine_of_ne hc, List.count_cons_of_ne hc]
      exact ih

/-- A line feed behind a text ends its last line, or is a line of its own. -/
theorem rawLines_append_newline (a : List Char) :
    rawLines (a ++ ['\n']) = rawLines a ++ [['\n']] ∨
      ∃ lines last, '\n' ∉ last ∧ rawLines a = lines ++ [last] ∧
        rawLines (a ++ ['\n']) = lines ++ [last ++ ['\n']] := by
  induction a with
  | nil => exact .inl rfl
  | cons c a ih =>
    rw [List.cons_append, rawLines_cons, rawLines_cons]
    by_cases hc : c = '\n'
    · subst hc
      rcases ih with ih | ⟨lines, last, hlast, ha, ih⟩
      · exact .inl (by rw [ih]; rfl)
      · exact .inr ⟨['\n'] :: lines, last, hlast, by rw [ha]; rfl, by rw [ih]; rfl⟩
    · rcases ih with ih | ⟨lines, last, hlast, ha, ih⟩
      · cases a with
        | nil => exact .inr ⟨[], [c], by simpa using Ne.symm hc, if_neg hc, if_neg hc⟩
        | cons d a =>
          have hne : rawLines (d :: a) ≠ [] := by simp [rawLines_eq_nil_iff]
          exact .inl (by rw [ih, consLine_append c hne])
      · rw [ha, ih]
        cases lines with
        | nil =>
          refine .inr ⟨[], c :: last, ?_, consLine_of_ne hc _ _, consLine_of_ne hc _ _⟩
          simpa [hlast] using Ne.symm hc
        | cons line lines =>
          exact .inr ⟨(c :: line) :: lines, last, hlast, consLine_of_ne hc _ _,
            consLine_of_ne hc _ _⟩

/-- Line number `n` starts behind `n` line feeds, the last of them directly before it. -/
theorem exists_of_getElem?_rawLines {s line : List Char} {n : Nat}
    (h : (rawLines s)[n]? = some line) :
    ∃ before after, s = before ++ line ++ after ∧ before.count '\n' = n ∧
      (before = [] ∨ before.getLast? = some '\n') := by
  induction s generalizing n line with
  | nil => simp at h
  | cons c s ih =>
    rw [rawLines_cons] at h
    by_cases hc : c = '\n'
    · subst hc
      cases n with
      | zero =>
        obtain rfl : ['\n'] = line := by simpa [consLine] using h
        exact ⟨[], s, rfl, rfl, .inl rfl⟩
      | succ n =>
        obtain ⟨before, after, rfl, hcount, hstart⟩ := ih (by simpa [consLine] using h)
        refine ⟨'\n' :: before, after, rfl, by simp [hcount], .inr ?_⟩
        rcases hstart with rfl | hstart
        · rfl
        · simp [List.getLast?_cons, hstart]
    · cases hs : rawLines s with
      | nil =>
        obtain rfl := rawLines_eq_nil_iff.1 hs
        have hline : [[c]][n]? = some line := by simpa [consLine, hc] using h
        obtain ⟨rfl, rfl⟩ : n = 0 ∧ line = [c] := by
          cases n with
          | zero => simpa [eq_comm] using hline
          | succ n => simp at hline
        exact ⟨[], [], rfl, rfl, .inl rfl⟩
      | cons first lines =>
        rw [hs, consLine_of_ne hc] at h
        cases n with
        | zero =>
          obtain rfl : c :: first = line := by simpa using h
          obtain ⟨before, after, rfl, hcount, hstart⟩ := ih (n := 0) (by rw [hs]; rfl)
          -- nothing can stand before the first line
          rcases hstart with rfl | hstart
          · exact ⟨[], after, rfl, rfl, .inl rfl⟩
          · exact absurd (List.mem_of_getLast? hstart) (List.count_eq_zero.1 hcount)
        | succ n =>
          obtain ⟨before, after, rfl, hcount, hstart⟩ :=
            ih (n := n + 1) (by rw [hs]; simpa using h)
          refine ⟨c :: before, after, rfl, by rw [List.count_cons_of_ne hc, hcount], .inr ?_⟩
          rcases hstart with rfl | hstart
          · cases hcount
          · simp [List.getLast?_cons, hstart]

/-! ### Lines without their endings -/

/-- A line has a line feed at most at its end. -/
theorem exists_of_mem_rawLines {s line : List Char} (h : line ∈ rawLines s) :
    ∃ body, '\n' ∉ body ∧ (line = body ∨ line = body ++ ['\n']) := by
  induction s generalizing line with
  | nil => cases h
  | cons c s ih =>
    rw [rawLines_cons] at h
    by_cases hc : c = '\n'
    · rw [hc, consLine_newline] at h
      rcases List.mem_cons.1 h with rfl | h
      · exact ⟨[], by simp, .inr rfl⟩
      · exact ih h
    · cases hs : rawLines s with
      | nil =>
        obtain rfl : line = [c] := by simpa [hs, consLine, hc] using h
        exact ⟨[c], by simpa using Ne.symm hc, .inl rfl⟩
      | cons first lines =>
        rw [hs, consLine_of_ne hc] at h
        rcases List.mem_cons.1 h with rfl | h
        · obtain ⟨body, hbody, hfirst⟩ := ih (by rw [hs]; exact List.mem_cons_self)
          refine ⟨c :: body, by simpa [hbody] using Ne.symm hc, ?_⟩
          rcases hfirst with rfl | rfl
          · exact .inl rfl
          · exact .inr rfl
        · exact ih (by rw [hs]; exact List.mem_cons_of_mem _ h)

theorem stripEnding_of_not_mem {line : List Char} (h : '\n' ∉ line) : stripEnding line = line := by
  unfold stripEnding
  split
  · next rest heq => exact absurd (List.mem_reverse.1 (heq ▸ List.mem_cons_self)) h
  · next rest _ heq => exact absurd (List.mem_reverse.1 (heq ▸ List.mem_cons_self)) h
  · rfl

/-- The ending of a line is a line feed, with the carriage return before it if there is one. -/
theorem stripEnding_append_newline (body : List Char) :
    stripEnding (body ++ ['\n']) = body ∨
      ∃ rest, body = rest ++ ['\r'] ∧ stripEnding (body ++ ['\n']) = rest := by
  have hrev : (body ++ ['\n']).reverse = '\n' :: body.reverse := by simp
  unfold stripEnding
  rw [hrev]
  split
  · next rest heq =>
    refine .inr ⟨rest.reverse, ?_, rfl⟩
    rw [← List.reverse_reverse body, (List.cons.inj heq).2, List.reverse_cons]
  · next rest _ heq =>
    refine .inl ?_
    rw [← (List.cons.inj heq).2, List.reverse_reverse]
  · next hother => exact absurd rfl (hother body.reverse)

theorem rawLines_of_not_mem {s : List Char} (h : '\n' ∉ s) (hne : s ≠ []) :
    rawLines s = [s] := by
  induction s with
  | nil => exact absurd rfl hne
  | cons c s ih =>
    obtain ⟨hc, hs⟩ : '\n' ≠ c ∧ '\n' ∉ s := by simpa using h
    rw [rawLines_cons]
    cases s with
    | nil => exact if_neg (Ne.symm hc)
    | cons d s => rw [ih hs (by simp), consLine_of_ne (Ne.symm hc)]

theorem lines_of_not_mem {s : List Char} (h : '\n' ∉ s) (hne : s ≠ []) : lines s = [s] := by
  rw [lines, rawLines_of_not_mem h hne, List.map_singleton, stripEnding_of_not_mem h]

theorem exists_of_getElem?_lines {s line : List Char} {n : Nat} (h : (lines s)[n]? = some line) :
    ∃ before after, s = before ++ line ++ after ∧ before.count '\n' = n ∧
      (before = [] ∨ before.getLast? = some '\n') ∧ '\n' ∉ line := by
  rw [lines, List.getElem?_map, Option.map_eq_some_iff] at h
  obtain ⟨raw, hraw, rfl⟩ := h
  obtain ⟨before, after, rfl, hcount, hstart⟩ := exists_of_getElem?_rawLines hraw
  obtain ⟨body, hbody, rfl | rfl⟩ := exists_of_mem_rawLines (List.mem_of_getElem? hraw)
  · rw [stripEnding_of_not_mem hbody]
    exact ⟨before, after, rfl, hcount, hstart, hbody⟩
  · rcases stripEnding_append_newline body with hstrip | ⟨rest, rfl, hstrip⟩
    · rw [hstrip]
      exact ⟨before, '\n' :: after, by simp, hcount, hstart, hbody⟩
    · rw [hstrip]
      refine ⟨before, '\r' :: '\n' :: after, by simp, hcount, hstart, fun hmem => hbody ?_⟩
      exact List.mem_append_left _ hmem

/-! ### Texts of one line -/

/-- The text has no line feed in it. -/
def IsLine (s : String) : Prop :=
  '\n' ∉ s.toList

instance : DecidablePred IsLine := fun _ => inferInstanceAs (Decidable (¬ _))

theorem IsLine.append {s s' : String} (h : IsLine s) (h' : IsLine s') : IsLine (s ++ s') := by
  unfold IsLine at *
  rw [String.toList_append, List.mem_append]
  rintro (hmem | hmem)
  · exact h hmem
  · exact h' hmem

theorem isLine_repr (n : Nat) : IsLine (Nat.repr n) := by
  intro h
  rw [Nat.toList_repr] at h
  have hdigit : Char.isDigit '\n' = true := Nat.isDigit_of_mem_toDigits (by decide) (by decide) h
  exact absurd hdigit (by decide)

/-- Two texts that agree agree up to the first `d` and behind it. -/
theorem append_cons_inj {d : Char} {xs xs' ys ys' : List Char} (hx : d ∉ xs) (hx' : d ∉ xs')
    (h : xs ++ d :: ys = xs' ++ d :: ys') : xs = xs' ∧ ys = ys' := by
  induction xs generalizing xs' with
  | nil =>
    cases xs' with
    | nil => exact ⟨rfl, (List.cons.inj h).2⟩
    | cons c' xs' =>
      obtain rfl : d = c' := (List.cons.inj h).1
      exact absurd List.mem_cons_self hx'
  | cons c xs ih =>
    cases xs' with
    | nil =>
      obtain rfl : c = d := (List.cons.inj h).1
      exact absurd List.mem_cons_self hx
    | cons c' xs' =>
      obtain ⟨rfl, hrest⟩ := List.cons.inj h
      have hxs : d ∉ xs := fun hd => hx (List.mem_cons_of_mem _ hd)
      have hxs' : d ∉ xs' := fun hd => hx' (List.mem_cons_of_mem _ hd)
      obtain ⟨rfl, hys⟩ := ih hxs hxs' hrest
      exact ⟨rfl, hys⟩

theorem toList_unlines_cons (line : String) (lines : List String) :
    (unlines (line :: lines)).toList = line.toList ++ '\n' :: (unlines lines).toList := by
  simp [unlines]

theorem unlines_injective {xs ys : List String} (hx : ∀ x ∈ xs, IsLine x)
    (hy : ∀ y ∈ ys, IsLine y) (h : unlines xs = unlines ys) : xs = ys := by
  induction xs generalizing ys with
  | nil =>
    cases ys with
    | nil => rfl
    | cons y ys => simpa [toList_unlines_cons, unlines] using congrArg String.toList h
  | cons x xs ih =>
    cases ys with
    | nil => simpa [toList_unlines_cons, unlines] using congrArg String.toList h
    | cons y ys =>
      have hchars := congrArg String.toList h
      rw [toList_unlines_cons, toList_unlines_cons] at hchars
      obtain ⟨hline, hlines⟩ := append_cons_inj (hx x (by simp)) (hy y (by simp)) hchars
      have hrest := ih (fun x hx' => hx x (by simp [hx'])) (fun y hy' => hy y (by simp [hy']))
        (String.toList_inj.1 hlines)
      rw [String.toList_inj.1 hline, hrest]

end ThreeAddress.Text
