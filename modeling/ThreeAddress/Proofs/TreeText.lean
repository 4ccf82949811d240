import ThreeAddress.Proofs.RecordedValues

/-!
# The tree of a program determines it

The columns in front of a line give its depth, the letters up to the colon its tag, and the rest is
its content, whatever the content looks like (`treeLine_inj`). A node is known from its line, and
how far its children go is known from their depth and their tags, so the lines of an expression are
no beginning of those of another one (`Expr.treeLines_append_inj`), and the statements can be told
apart (`stmts_eq_of_treeLines`).
-/

namespace ThreeAddress

/-! ### Lines of the tree -/

/-- Equal texts have the same run of `c` at their beginning. -/
theorem Text.replicate_append_inj {c : Char} {m n : Nat} {xs ys : List Char}
    (hx : xs.head? ≠ some c) (hy : ys.head? ≠ some c)
    (h : List.replicate m c ++ xs = List.replicate n c ++ ys) : m = n ∧ xs = ys := by
  induction m generalizing n with
  | zero =>
    cases n with
    | zero => exact ⟨rfl, h⟩
    | succ n =>
      obtain rfl : xs = c :: (List.replicate n c ++ ys) := h
      exact absurd rfl hx
  | succ m ih =>
    cases n with
    | zero =>
      obtain rfl : c :: (List.replicate m c ++ xs) = ys := h
      exact absurd rfl hy
    | succ n =>
      obtain ⟨rfl, hxs⟩ := ih (List.cons.inj h).2
      exact ⟨rfl, hxs⟩

/-- Only letters. -/
def IsTag (tag : String) : Prop :=
  tag.toList.all Char.isAlpha = true

instance : DecidablePred IsTag := fun _ => inferInstanceAs (Decidable (_ = true))

namespace IsTag

variable {tag : String}

theorem not_mem (h : IsTag tag) {c : Char} (hc : c.isAlpha = false) : c ∉ tag.toList := by
  intro hmem
  have hletter := List.all_eq_true.1 h c hmem
  rw [hc] at hletter
  cases hletter

theorem head?_ne_blank (h : IsTag tag) (rest : List Char) :
    (tag.toList ++ ':' :: rest).head? ≠ some ' ' := by
  have hblank := h.not_mem (c := ' ') (by decide)
  intro hhead
  cases hchars : tag.toList with
  | nil => simp [hchars] at hhead
  | cons c cs =>
    obtain rfl : c = ' ' := by simpa [hchars] using hhead
    exact hblank (by simp [hchars])

end IsTag

theorem toList_treeLine (depth : Nat) (tag content : String) :
    (treeLine depth tag content).toList =
      List.replicate (2 * depth) ' ' ++ (tag.toList ++ ':' :: ' ' :: content.toList) := by
  simp [treeLine]

theorem treeLine_inj {d d' : Nat} {tag tag' content content' : String} (htag : IsTag tag)
    (htag' : IsTag tag') (h : treeLine d tag content = treeLine d' tag' content') :
    d = d' ∧ tag = tag' ∧ content = content' := by
  have hchars := congrArg String.toList h
  rw [toList_treeLine, toList_treeLine] at hchars
  obtain ⟨hdepth, hline⟩ := Text.replicate_append_inj (htag.head?_ne_blank _)
    (htag'.head?_ne_blank _) hchars
  obtain ⟨hword, hcontent⟩ := Text.append_cons_inj (htag.not_mem (by decide))
    (htag'.not_mem (by decide)) hline
  exact ⟨by omega, String.toList_inj.1 hword, String.toList_inj.1 (List.cons.inj hcontent).2⟩

theorem isLine_treeLine {tag content : String} (htag : IsTag tag) (hcontent : Text.IsLine content)
    (depth : Nat) : Text.IsLine (treeLine depth tag content) := by
  have hnewline := htag.not_mem (c := '\n') (by decide)
  unfold Text.IsLine at *
  rw [toList_treeLine]
  simp [hnewline, hcontent]

/-! ### Expressions -/

/-- The tag and the content of the node at the root. -/
def Expr.heading : Expr → String × String
  | number text => ("Number", text)
  | identifier name => ("Identifier", name)
  | binary op _ _ => ("BinaryOp", op.symbol)

theorem Expr.isTag_heading (e : Expr) : IsTag e.heading.1 := by
  cases e with
  | number => exact (by decide : IsTag "Number")
  | identifier => exact (by decide : IsTag "Identifier")
  | binary => exact (by decide : IsTag "BinaryOp")

theorem Expr.exists_treeLines (e : Expr) (depth : Nat) :
    ∃ below, e.treeLines depth = treeLine depth e.heading.1 e.heading.2 :: below := by
  cases e <;> exact ⟨_, rfl⟩

theorem Expr.heading_eq {e e' : Expr} {depth : Nat} {rest rest' : List String}
    (h : e.treeLines depth ++ rest = e'.treeLines depth ++ rest') : e.heading = e'.heading := by
  obtain ⟨below, hbelow⟩ := e.exists_treeLines depth
  obtain ⟨below', hbelow'⟩ := e'.exists_treeLines depth
  rw [hbelow, hbelow'] at h
  obtain ⟨-, htag, hcontent⟩ := treeLine_inj e.isTag_heading e'.isTag_heading (List.cons.inj h).1
  exact Prod.ext htag hcontent

/-- The lines of an expression end where its tree says, whatever follows. -/
theorem Expr.treeLines_append_inj {e e' : Expr} {depth : Nat} {rest rest' : List String}
    (h : e.treeLines depth ++ rest = e'.treeLines depth ++ rest') : e = e' ∧ rest = rest' := by
  induction e generalizing e' depth rest rest' with
  | number text =>
    have hheading := heading_eq h
    cases e' with
    | number text' =>
      obtain rfl : text = text' := by simpa [heading] using hheading
      exact ⟨rfl, (List.cons.inj h).2⟩
    | identifier | binary => simp [heading] at hheading
  | identifier name =>
    have hheading := heading_eq h
    cases e' with
    | identifier name' =>
      obtain rfl : name = name' := by simpa [heading] using hheading
      exact ⟨rfl, (List.cons.inj h).2⟩
    | number | binary => simp [heading] at hheading
  | binary op left right ihl ihr =>
    have hheading := heading_eq h
    cases e' with
    | binary op' left' right' =>
      obtain rfl : op = op' := by
        have hop := congrArg (BinOp.ofSymbol? ·.2) hheading
        simpa [heading] using hop
      simp only [treeLines, List.cons_append, List.append_assoc, List.cons.injEq, true_and] at h
      -- where the left operand ends, the right one starts
      obtain ⟨rfl, hright⟩ := ihl h
      obtain ⟨rfl, hrest⟩ := ihr hright
      exact ⟨rfl, hrest⟩
    | number | identifier => simp [heading] at hheading

/-! ### Statements -/

def Stmt.heading : Stmt → String × String
  | declaration ty name _ => ("Declaration", ty.keyword ++ " " ++ name)
  | assignment name _ => ("Assignment", name)
  | print name => ("Print", name)

theorem Stmt.isTag_heading (s : Stmt) : IsTag s.heading.1 := by
  cases s with
  | declaration => exact (by decide : IsTag "Declaration")
  | assignment => exact (by decide : IsTag "Assignment")
  | print => exact (by decide : IsTag "Print")

/-- A statement has one line, and below it those of its expression, if it has one. -/
theorem Stmt.treeLines_eq (s : Stmt) :
    s.treeLines = treeLine 1 s.heading.1 s.heading.2 :: s.expr?.elim [] (Expr.treeLines 2) := by
  cases s <;> rfl

theorem Stmt.eq_of_heading {s s' : Stmt} (hheading : s.heading = s'.heading)
    (hexpr : s.expr? = s'.expr?) : s = s' := by
  cases s with
  | declaration ty name init =>
    cases s' with
    | declaration ty' name' init' =>
      have hchars : ty.keyword.toList ++ ' ' :: name.toList =
          ty'.keyword.toList ++ ' ' :: name'.toList := by
        have htext := congrArg (String.toList ·.2) hheading
        simpa [heading] using htext
      obtain ⟨hty, hname⟩ := Text.append_cons_inj ty.blank_not_mem_keyword
        ty'.blank_not_mem_keyword hchars
      obtain rfl : ty = ty' := by
        have hkeyword := congrArg Ty.ofKeyword? (String.toList_inj.1 hty)
        simpa using hkeyword
      obtain rfl : name = name' := String.toList_inj.1 hname
      obtain rfl : init = init' := hexpr
      rfl
    | assignment | print => simp [heading] at hheading
  | assignment name value =>
    cases s' with
    | assignment name' value' =>
      obtain rfl : name = name' := by simpa [heading] using hheading
      obtain rfl : value = value' := Option.some.inj hexpr
      rfl
    | declaration | print => simp [heading] at hheading
  | print name =>
    cases s' with
    | print name' =>
      obtain rfl : name = name' := by simpa [heading] using hheading
      rfl
    | declaration | assignment => simp [heading] at hheading

/-- Where the expression of a statement would be, the next statement stands one level higher. -/
theorem treeLines_ne_flatMap (e : Expr) (rest : List String) (stmts : List Stmt) :
    e.treeLines 2 ++ rest ≠ stmts.flatMap Stmt.treeLines := by
  intro h
  obtain ⟨below, hbelow⟩ := e.exists_treeLines 2
  cases stmts with
  | nil => simp [hbelow] at h
  | cons s stmts =>
    rw [hbelow, List.flatMap_cons, s.treeLines_eq] at h
    obtain ⟨hdepth, -⟩ := treeLine_inj e.isTag_heading s.isTag_heading (List.cons.inj h).1
    cases hdepth

theorem elim_treeLines_inj {init init' : Option Expr} {stmts stmts' : List Stmt}
    (h : init.elim [] (Expr.treeLines 2) ++ stmts.flatMap Stmt.treeLines =
      init'.elim [] (Expr.treeLines 2) ++ stmts'.flatMap Stmt.treeLines) :
    init = init' ∧ stmts.flatMap Stmt.treeLines = stmts'.flatMap Stmt.treeLines := by
  cases init with
  | none =>
    cases init' with
    | none => exact ⟨rfl, h⟩
    | some e' => exact absurd h.symm (treeLines_ne_flatMap e' _ _)
  | some e =>
    cases init' with
    | none => exact absurd h (treeLines_ne_flatMap e _ _)
    | some e' =>
      obtain ⟨rfl, hrest⟩ := Expr.treeLines_append_inj h
      exact ⟨rfl, hrest⟩

theorem stmts_eq_of_treeLines {stmts stmts' : List Stmt}
    (h : stmts.flatMap Stmt.treeLines = stmts'.flatMap Stmt.treeLines) : stmts = stmts' := by
  induction stmts generalizing stmts' with
  | nil =>
    cases stmts' with
    | nil => rfl
    | cons s' => simp [s'.treeLines_eq] at h
  | cons s stmts ih =>
    cases stmts' with
    | nil => simp [s.treeLines_eq] at h
    | cons s' stmts' =>
      rw [List.flatMap_cons, List.flatMap_cons, s.treeLines_eq, s'.treeLines_eq] at h
      obtain ⟨hline, hbelow⟩ := List.cons.inj h
      obtain ⟨-, htag, hcontent⟩ := treeLine_inj s.isTag_heading s'.isTag_heading hline
      obtain ⟨hexpr, hrest⟩ := elim_treeLines_inj hbelow
      rw [Stmt.eq_of_heading (Prod.ext htag hcontent) hexpr, ih hrest]

/-! ### Programs -/

theorem Expr.isLine_treeLines {e : Expr} (h : e.Texts Text.IsLine Text.IsLine) (depth : Nat) :
    ∀ line ∈ e.treeLines depth, Text.IsLine line := by
  induction e generalizing depth with
  | number text =>
    intro line hline
    rw [List.mem_singleton.1 hline]
    exact isLine_treeLine (by decide) h depth
  | identifier name =>
    intro line hline
    rw [List.mem_singleton.1 hline]
    exact isLine_treeLine (by decide) h depth
  | binary op left right ihl ihr =>
    have hop : Text.IsLine op.symbol := by cases op <;> decide
    intro line hline
    rcases List.mem_cons.1 hline with rfl | hline
    · exact isLine_treeLine (by decide) hop depth
    · rcases List.mem_append.1 hline with hline | hline
      · exact ihl h.1 _ line hline
      · exact ihr h.2 _ line hline

theorem Stmt.isLine_treeLines {s : Stmt} (h : s.Texts Text.IsLine Text.IsLine) :
    ∀ line ∈ s.treeLines, Text.IsLine line := by
  have hheading : Text.IsLine s.heading.2 := by
    cases s with
    | declaration ty name init => exact (ty.isLine_keyword.append (by decide)).append h.1
    | assignment name value => exact h.1
    | print name => exact h
  have hexpr : ∀ e ∈ s.expr?, e.Texts Text.IsLine Text.IsLine := by
    cases s with
    | declaration ty name init => exact h.2
    | assignment name value =>
      rintro e ⟨⟩
      exact h.2
    | print name => rintro e ⟨⟩
  intro line hline
  rw [s.treeLines_eq] at hline
  rcases List.mem_cons.1 hline with rfl | hline
  · exact isLine_treeLine s.isTag_heading hheading 1
  · cases he : s.expr? with
    | none => simp [he] at hline
    | some e => exact e.isLine_treeLines (hexpr e he) 2 line (by simpa [he] using hline)

theorem Program.isLine_treeLines {p : Program}
    (h : ∀ s ∈ p.stmts, s.Texts Text.IsLine Text.IsLine) :
    ∀ line ∈ "Program" :: p.stmts.flatMap Stmt.treeLines, Text.IsLine line := by
  intro line hline
  rcases List.mem_cons.1 hline with rfl | hline
  · decide
  · obtain ⟨s, hs, hline⟩ := List.mem_flatMap.1 hline
    exact Stmt.isLine_treeLines (h s hs) line hline

/-- Programs whose names and numbers have no line feed in them and whose trees are the same text are
the same program. -/
theorem tree_determines_program {p q : Program}
    (hp : ∀ s ∈ p.stmts, s.Texts Text.IsLine Text.IsLine)
    (hq : ∀ s ∈ q.stmts, s.Texts Text.IsLine Text.IsLine) (h : p.tree = q.tree) : p = q := by
  have hlines := Text.unlines_injective (Program.isLine_treeLines hp) (Program.isLine_treeLines hq) h
  have hstmts := stmts_eq_of_treeLines (List.cons.inj hlines).2
  obtain ⟨stmts⟩ := p
  obtain ⟨stmts'⟩ := q
  exact congrArg Program.mk hstmts

/-- A name with a colon and a number that looks like a line of the tree do no harm. -/
theorem tree_determines_program_lookalike :
    let p : Program := ⟨[.declaration .int "x: 1" (some (.number "\tPrint: x")), .print ""]⟩
    let q : Program := ⟨[.declaration .int ("x" ++ ": 1") (some (.number ("\t" ++ "Print: x"))),
      .print ""]⟩
    p.tree = "Program\n  Declaration: int x: 1\n    Number: \tPrint: x\n  Print: \n" ∧ p = q := by
  intro p q
  exact ⟨by decide, tree_determines_program (by decide) (by decide) (by decide)⟩

end ThreeAddress
