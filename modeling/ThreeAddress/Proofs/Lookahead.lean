import ThreeAddress.Proofs.Grammar
import ThreeAddress.Proofs.LongestMatch

/-!
# Where reading stops

A reader takes the tokens in front of the place where it stops, looks at the one that stands there,
and sees nothing behind it (`OneAhead`). So if a list of tokens is no program, the error is the same
for every list that begins like it up to the offending token. Only a statement that starts with a
name looks one token further, at what follows the name. What was read before the offending token is
the beginning of a program (`exists_derivesStmts_of_error`), so nothing before it is to blame.
-/

namespace ThreeAddress

variable {α β : Type}

/-! ### One token ahead -/

namespace Reading

/-- The tokens that the reading leaves, or fails at. -/
def rest : Reading α → List Token
  | .ok (_, rest) => rest
  | .error f => f.rest

/-- The same reading in front of other tokens. -/
def withRest (r : Reading α) (rest : List Token) : Reading α :=
  match r with
  | .ok (a, _) => .ok (a, rest)
  | .error f => .error ⟨f.expected, rest⟩

@[simp] theorem rest_withRest (r : Reading α) (rest : List Token) :
    (r.withRest rest).rest = rest := by
  cases r <;> rfl

theorem withRest_withRest (r : Reading α) (rest other : List Token) :
    (r.withRest rest).withRest other = r.withRest other := by
  cases r <;> rfl

theorem andThen_eq_error_iff {r : Reading α} {next : α → List Token → Reading β} {f : Failure} :
    r.andThen next = .error f ↔
      r = .error f ∨ ∃ a rest, r = .ok (a, rest) ∧ next a rest = .error f := by
  match r with
  | .error f => simp
  | .ok (a, rest) =>
    constructor
    · exact fun h => .inr ⟨a, rest, rfl, h⟩
    · rintro (h | ⟨_, _, ⟨⟩, h⟩)
      · cases h
      · exact h

end Reading

/-- On the tokens `ts` the reader depends only on those that it takes and on the first one that it
leaves or fails at. -/
def OneAheadAt (read : List Token → Reading α) (ts : List Token) : Prop :=
  ∃ before, ts = before ++ (read ts).rest ∧
    ∀ other, other.head? = (read ts).rest.head? →
      read (before ++ other) = (read ts).withRest other

def OneAhead (read : List Token → Reading α) : Prop :=
  ∀ ts, OneAheadAt read ts

theorem OneAheadAt.nil {read : List Token → Reading α} (h : (read []).rest = []) :
    OneAheadAt read [] := by
  refine ⟨[], h.symm, fun other hother => ?_⟩
  obtain rfl : other = [] := by simpa [h] using hother
  cases hread : read [] with
  | ok a => rw [hread] at h; obtain ⟨a, _⟩ := a; cases h; exact hread
  | error f => rw [hread] at h; cases f; cases h; exact hread

/-- A reader that takes nothing, but may look at the token `t`. -/
theorem OneAheadAt.of_head {read : List Token → Reading α} {t : Token} {r : Reading α}
    (h : ∀ us, read (t :: us) = r.withRest (t :: us)) (ts : List Token) :
    OneAheadAt read (t :: ts) := by
  refine ⟨[], by simp [h], fun other hother => ?_⟩
  obtain ⟨us, rfl⟩ : ∃ us, other = t :: us := by simpa [h, List.head?_eq_some_iff] using hother
  rw [List.nil_append, h, h, Reading.withRest_withRest]

/-- A reader that takes the token `t` and then reads as another one does. -/
theorem OneAheadAt.cons {read inner : List Token → Reading α} {t : Token} {ts : List Token}
    (hread : ∀ us, read (t :: us) = inner us) (h : OneAheadAt inner ts) :
    OneAheadAt read (t :: ts) := by
  obtain ⟨before, hts, hinner⟩ := h
  rw [← hread ts] at hts hinner
  refine ⟨t :: before, congrArg (t :: ·) hts, fun other hother => ?_⟩
  rw [List.cons_append, hread, hinner other hother]

theorem OneAheadAt.andThen {read : List Token → Reading α} {next : α → List Token → Reading β}
    {ts : List Token} (h : OneAheadAt read ts) (hnext : ∀ a, OneAhead (next a)) :
    OneAheadAt (fun ts => (read ts).andThen next) ts := by
  obtain ⟨before, hts, hbefore⟩ := h
  simp only [OneAheadAt]
  match hread : read ts with
  | .error f =>
    rw [hread] at hts hbefore
    refine ⟨before, hts, fun other hother => ?_⟩
    rw [hbefore other hother]
    rfl
  | .ok (a, rest) =>
    rw [hread] at hts hbefore
    obtain ⟨inner, hrest, hinner⟩ := hnext a rest
    rw [Reading.andThen_ok]
    refine ⟨before ++ inner, ?_, fun other hother => ?_⟩
    · rw [List.append_assoc, ← hrest]
      exact hts
    · -- the first token behind `before` is the same, whether `next` takes any or none
      have hhead : (inner ++ other).head? = rest.head? := by
        rw [hrest, List.head?_append, List.head?_append, hother]
      rw [List.append_assoc, hbefore _ hhead]
      exact hinner other hother

theorem oneAhead_ok (a : α) : OneAhead fun rest => .ok (a, rest)
  | [] => .nil rfl
  | _ :: ts => .of_head (r := .ok (a, [])) (fun _ => rfl) ts

/-! ### The readers -/

theorem oneAhead_readLinks : OneAhead readLinks := by
  intro ts
  fun_induction readLinks ts with
  | case1 => exact .nil rfl
  | case2 t ts ht =>
    refine .of_head (r := .ok ([], [])) (fun us => ?_) ts
    simp [readLinks, ht, Reading.withRest]
  | case3 t op ht =>
    refine .cons (fun _ => rfl) (.nil ?_)
    simp [readLinks, ht, Reading.rest]
  | case4 t op ht u rest hu =>
    refine .cons (fun _ => rfl) (.of_head (r := .error ⟨.expression, []⟩) (fun us => ?_) rest)
    simp [readLinks, ht, hu, Reading.withRest]
  | case5 t op ht u rest right hu ih =>
    refine .cons (fun _ => rfl) (.cons (fun us => ?_)
      (ih.andThen fun links => oneAhead_ok ((op, right) :: links)))
    simp [readLinks, ht, hu]

theorem oneAhead_readExpression : OneAhead readExpression := by
  intro ts
  cases ts with
  | nil => exact .nil rfl
  | cons t ts =>
    cases ht : t.operand? with
    | none =>
      refine .of_head (r := .error ⟨.expression, []⟩) (fun us => ?_) ts
      simp [readExpression, ht, Reading.withRest]
    | some first =>
      refine .cons (fun us => ?_)
        ((oneAhead_readLinks ts).andThen fun links => oneAhead_ok (assemble id first links))
      simp [readExpression, ht]

theorem oneAhead_readName (expected : Expected) : OneAhead (readName expected) := by
  intro ts
  cases ts with
  | nil => exact .nil rfl
  | cons t ts =>
    by_cases ht : t.kind = .identifier
    · refine .cons (fun us => ?_) (oneAhead_ok t.text ts)
      simp [readName, ht]
    · refine .of_head (r := .error ⟨expected, []⟩) (fun us => ?_) ts
      simp [readName, Reading.withRest]

theorem oneAhead_readSemicolon (expected : Expected) : OneAhead (readSemicolon expected) := by
  intro ts
  cases ts with
  | nil => exact .nil rfl
  | cons t ts =>
    by_cases ht : t.is .separator ";"
    · refine .cons (fun us => ?_) (oneAhead_ok () ts)
      simp only [readSemicolon, ht, if_true]
    · refine .of_head (r := .error ⟨expected, []⟩) (fun us => ?_) ts
      simp only [readSemicolon, ht]
      rfl

theorem oneAhead_readInitializer : OneAhead readInitializer := by
  intro ts
  cases ts with
  | nil => exact .nil rfl
  | cons t ts =>
    by_cases ht : t.kind = .assignment
    · refine .cons (fun us => ?_)
        ((oneAhead_readExpression ts).andThen fun value => oneAhead_ok (some value))
      simp [readInitializer, ht]
    · refine .of_head (r := .ok (none, [])) (fun us => ?_) ts
      simp [readInitializer, Reading.withRest]

theorem oneAhead_readDeclaration (ty : Ty) : OneAhead (readDeclaration ty) := by
  intro ts
  refine (oneAhead_readName _ ts).andThen fun name ts => ?_
  refine (oneAhead_readInitializer ts).andThen fun init ts => ?_
  exact (oneAhead_readSemicolon _ ts).andThen fun _ => oneAhead_ok _

theorem oneAhead_readAssignment (name : String) : OneAhead (readAssignment name) := by
  intro ts
  refine (oneAhead_readExpression ts).andThen fun value ts => ?_
  exact (oneAhead_readSemicolon _ ts).andThen fun _ => oneAhead_ok _

theorem oneAhead_readPrint : OneAhead readPrint := by
  intro ts
  refine (oneAhead_readName _ ts).andThen fun name ts => ?_
  exact (oneAhead_readSemicolon _ ts).andThen fun _ => oneAhead_ok _

/-- A name that no assignment sign follows. -/
inductive LoneName : List Token → Prop
  | mk {t : Token} {ts : List Token} (ht : t.kind = .identifier)
      (hts : ∀ u ∈ ts.head?, u.kind ≠ .assignment) : LoneName (t :: ts)

theorem LoneName.readStatement_eq {ts : List Token} (h : LoneName ts) :
    readStatement ts = .error ⟨.statement, ts⟩ := by
  cases h with
  | @mk t ts ht hts =>
    cases ts with
    | nil => simp [readStatement, ht]
    | cons u ts =>
      simp only [readStatement, ht]
      split
      · next hk => exact absurd hk (hts u rfl)
      · rfl

/-- Of the tokens of a statement, only a name is not read before the token behind it is seen. -/
theorem oneAheadAt_readStatement (ts : List Token) :
    OneAheadAt readStatement ts ∨ LoneName ts := by
  cases ts with
  | nil => exact .inl (.nil rfl)
  | cons t ts =>
    cases hk : t.kind with
    | keyword =>
      refine .inl ?_
      cases hty : Ty.ofKeyword? t.text with
      | some ty =>
        refine .cons (fun us => ?_) (oneAhead_readDeclaration ty ts)
        simp [readStatement, hk, hty]
      | none =>
        refine .cons (fun us => ?_) (oneAhead_readPrint ts)
        simp [readStatement, hk, hty]
    | identifier =>
      cases ts with
      | nil => exact .inr (.mk hk (by simp))
      | cons u ts =>
        by_cases hu : u.kind = .assignment
        · refine .inl (.cons (fun _ => rfl) (.cons (fun us => ?_)
            (oneAhead_readAssignment t.text ts)))
          simp [readStatement, hk, hu]
        · exact .inr (.mk hk (by simpa using hu))
    | floatNumber | number | assignment | operator | separator =>
      refine .inl (.of_head (r := .error ⟨.statement, []⟩) (fun us => ?_) ts)
      simp [readStatement, hk, Reading.withRest]

/-! ### What was read is the beginning of a program -/

theorem exists_derivesLinks_of_error {ts : List Token} {f : Failure}
    (h : readLinks ts = .error f) :
    ∃ before after links, ts = before ++ f.rest ∧ DerivesLinks (before ++ after) links := by
  have hzero : DerivesFactor ⟨.number, "0", 1⟩ (.number "0") := .number rfl
  fun_induction readLinks ts with
  | case1 | case2 => cases h
  | case3 t op ht =>
    cases h
    exact ⟨[t], _, _, rfl, .cons (operator?_eq_some_iff.1 ht) hzero .nil⟩
  | case4 t op ht u rest hu =>
    cases h
    exact ⟨[t], _, _, rfl, .cons (operator?_eq_some_iff.1 ht) hzero .nil⟩
  | case5 t op ht u rest right hu ih =>
    rcases Reading.andThen_eq_error_iff.1 h with h | ⟨_, _, _, ⟨⟩⟩
    obtain ⟨before, after, links, rfl, hlinks⟩ := ih h
    exact ⟨t :: u :: before, after, _, rfl,
      .cons (operator?_eq_some_iff.1 ht) (operand?_eq_some_iff.1 hu) hlinks⟩

theorem exists_derivesExpr_of_error {ts : List Token} {f : Failure}
    (h : readExpression ts = .error f) :
    ∃ before after e, ts = before ++ f.rest ∧ DerivesExpr (before ++ after) e := by
  unfold readExpression at h
  split at h
  · cases h
    exact ⟨[], [⟨.number, "0", 1⟩], _, rfl, .term (.factor (.number rfl))⟩
  next t ts =>
  split at h
  · cases h
    exact ⟨[], [⟨.number, "0", 1⟩], _, rfl, .term (.factor (.number rfl))⟩
  · next first hfirst =>
    rcases Reading.andThen_eq_error_iff.1 h with h | ⟨_, _, _, ⟨⟩⟩
    obtain ⟨before, after, links, rfl, hlinks⟩ := exists_derivesLinks_of_error h
    refine ⟨t :: before, after, assemble id first links, rfl, derivesExpr_iff.2 ?_⟩
    exact ⟨t, before ++ after, first, links, rfl, operand?_eq_some_iff.1 hfirst, hlinks, rfl⟩

theorem rest_of_readName_error {expected : Expected} {ts : List Token} {f : Failure}
    (h : readName expected ts = .error f) : f.rest = ts := by
  unfold readName at h
  split at h
  · cases h; rfl
  split at h
  · cases h
  · cases h; rfl

theorem rest_of_readSemicolon_error {expected : Expected} {ts : List Token} {f : Failure}
    (h : readSemicolon expected ts = .error f) : f.rest = ts := by
  unfold readSemicolon at h
  split at h
  · cases h; rfl
  split at h
  · cases h
  · cases h; rfl

theorem exists_derivesInit_of_error {ts : List Token} {f : Failure}
    (h : readInitializer ts = .error f) :
    ∃ before after init, ts = before ++ f.rest ∧ DerivesInit (before ++ after) init := by
  unfold readInitializer at h
  split at h
  · cases h
  next a ts =>
  split at h
  · next ha =>
    rcases Reading.andThen_eq_error_iff.1 h with h | ⟨_, _, _, ⟨⟩⟩
    obtain ⟨before, after, e, rfl, he⟩ := exists_derivesExpr_of_error h
    exact ⟨a :: before, after, some e, rfl, .present ha he⟩
  · cases h

theorem is_semicolon : (⟨.separator, ";", 1⟩ : Token).is .separator ";" := by
  decide

section

variable {t : Token} {ts : List Token} {f : Failure}

theorem exists_declaration_of_error {ty : Ty} (ht : t.is .keyword ty.keyword)
    (h : readDeclaration ty ts = .error f) :
    ∃ before after s, t :: ts = before ++ f.rest ∧ DerivesStmt (before ++ after) s := by
  rcases Reading.andThen_eq_error_iff.1 h with hname | ⟨_, ts₁, hname, h₁⟩
  · rw [rest_of_readName_error hname]
    exact ⟨[t], _, _, rfl, .declaration (x := ⟨.identifier, "x", 1⟩) ht rfl .absent is_semicolon⟩
  obtain ⟨x, rfl, hx, rfl⟩ := readName_eq_ok_iff.1 hname
  rcases Reading.andThen_eq_error_iff.1 h₁ with hread | ⟨_, ts₂, hread, h₂⟩
  · obtain ⟨before, after, init, rfl, hinit⟩ := exists_derivesInit_of_error hread
    have hstmt := DerivesStmt.declaration ht hx hinit is_semicolon
    exact ⟨t :: x :: before, after ++ [⟨.separator, ";", 1⟩], _, rfl, by simpa using hstmt⟩
  rcases Reading.andThen_eq_error_iff.1 h₂ with hsemi | ⟨_, _, _, ⟨⟩⟩
  obtain ⟨us, rfl, hinit⟩ := derivesInit_of_readInitializer hread
  rw [rest_of_readSemicolon_error hsemi]
  exact ⟨t :: x :: us, [⟨.separator, ";", 1⟩], _, rfl, .declaration ht hx hinit is_semicolon⟩

theorem exists_assignment_of_error {a : Token} (ht : t.kind = .identifier)
    (ha : a.kind = .assignment) {name : String} (h : readAssignment name ts = .error f) :
    ∃ before after s, t :: a :: ts = before ++ f.rest ∧ DerivesStmt (before ++ after) s := by
  rcases Reading.andThen_eq_error_iff.1 h with hvalue | ⟨_, ts₁, hvalue, h₁⟩
  · obtain ⟨before, after, e, rfl, he⟩ := exists_derivesExpr_of_error hvalue
    have hstmt := DerivesStmt.assignment ht ha he is_semicolon
    exact ⟨t :: a :: before, after ++ [⟨.separator, ";", 1⟩], _, rfl, by simpa using hstmt⟩
  rcases Reading.andThen_eq_error_iff.1 h₁ with hsemi | ⟨_, _, _, ⟨⟩⟩
  obtain ⟨us, rfl, he, -⟩ := readExpression_eq_ok_iff.1 hvalue
  rw [rest_of_readSemicolon_error hsemi]
  exact ⟨t :: a :: us, [⟨.separator, ";", 1⟩], _, rfl, .assignment ht ha he is_semicolon⟩

theorem exists_print_of_error (ht : t.kind = .keyword) (hty : Ty.ofKeyword? t.text = none)
    (h : readPrint ts = .error f) :
    ∃ before after s, t :: ts = before ++ f.rest ∧ DerivesStmt (before ++ after) s := by
  obtain ⟨hint, hfloat⟩ := Ty.ofKeyword?_eq_none_iff.1 hty
  rcases Reading.andThen_eq_error_iff.1 h with hname | ⟨_, ts₁, hname, h₁⟩
  · rw [rest_of_readName_error hname]
    exact ⟨[t], _, _, rfl, .print (x := ⟨.identifier, "x", 1⟩) ht hint hfloat rfl is_semicolon⟩
  obtain ⟨x, rfl, hx, rfl⟩ := readName_eq_ok_iff.1 hname
  rcases Reading.andThen_eq_error_iff.1 h₁ with hsemi | ⟨_, _, _, ⟨⟩⟩
  rw [rest_of_readSemicolon_error hsemi]
  exact ⟨[t, x], [⟨.separator, ";", 1⟩], _, rfl, .print ht hint hfloat hx is_semicolon⟩

end

theorem exists_derivesStmt_of_error {ts : List Token} {f : Failure}
    (h : readStatement ts = .error f) :
    ∃ before after s, ts = before ++ f.rest ∧ DerivesStmt (before ++ after) s := by
  -- where nothing was read, any statement will do
  have hany : DerivesStmt [⟨.keyword, "print", 1⟩, ⟨.identifier, "x", 1⟩, ⟨.separator, ";", 1⟩]
      (.print "x") := .print rfl (by decide) (by decide) rfl (by decide)
  unfold readStatement at h
  split at h
  · cases h
    exact ⟨[], _, _, rfl, hany⟩
  next t ts =>
  split at h
  · next hk =>
    split at h
    · next ty hty =>
      have ht := Token.is_eq_true_iff.2 ⟨hk, Ty.ofKeyword?_eq_some_iff.1 hty⟩
      exact exists_declaration_of_error ht h
    · next hty => exact exists_print_of_error hk hty h
  · next hk =>
    split at h
    · cases h
      exact ⟨[], _, _, rfl, hany⟩
    next a ts =>
    split at h
    · next ha => exact exists_assignment_of_error hk ha h
    · cases h
      exact ⟨[], _, _, rfl, hany⟩
  · cases h
    exact ⟨[], _, _, rfl, hany⟩

/-! ### Programs -/

/-- Reading statements fails at the first one that cannot be read. -/
theorem readStatements_eq_error_iff {ts : List Token} {f : Failure} :
    readStatements ts = .error f ↔ ∃ read bad stmts, ts = read ++ bad ∧ bad ≠ [] ∧
      DerivesStmts read stmts ∧ readStatement bad = .error f := by
  constructor
  · intro h
    fun_induction readStatements ts with
    | case1 => cases h
    | case2 t ts f' hf =>
      cases h
      exact ⟨[], t :: ts, [], rfl, by simp, .nil, hf⟩
    | case3 t ts s rest hs _ ih =>
      cases hrest : readStatements rest with
      | ok stmts => rw [hrest] at h; cases h
      | error f' =>
        rw [hrest] at h
        cases h
        obtain ⟨us, hus, hstmt⟩ := derivesStmt_of_readStatement hs
        obtain ⟨read, bad, stmts, rfl, hne, hread, hbad⟩ := ih hrest
        exact ⟨us ++ read, bad, s :: stmts, by rw [hus, List.append_assoc], hne,
          .cons hstmt hread, hbad⟩
  · rintro ⟨read, bad, stmts, rfl, hne, hread, hbad⟩
    induction hread with
    | nil => exact readStatements_of_error hne hbad
    | cons hstmt _ ih =>
      rw [List.append_assoc, readStatements_of_ok (readStatement_of_derivesStmt hstmt _), ih]
      rfl

theorem DerivesStmts.append {ts us : List Token} {xs ys : List Stmt} (h : DerivesStmts ts xs)
    (h' : DerivesStmts us ys) : DerivesStmts (ts ++ us) (xs ++ ys) := by
  induction h with
  | nil => exact h'
  | cons hstmt _ ih =>
    rw [List.append_assoc]
    exact .cons hstmt ih

theorem exists_derivesStmts_of_error {ts : List Token} {f : Failure}
    (h : readStatements ts = .error f) :
    ∃ before after stmts, ts = before ++ f.rest ∧ DerivesStmts (before ++ after) stmts := by
  obtain ⟨read, bad, stmts, rfl, -, hread, hbad⟩ := readStatements_eq_error_iff.1 h
  obtain ⟨before, after, s, rfl, hstmt⟩ := exists_derivesStmt_of_error hbad
  have hstmts := hread.append (.cons hstmt .nil)
  exact ⟨read ++ before, after, stmts ++ [s], by simp, by simpa using hstmts⟩

/-- The failure depends on nothing behind the offending token, or, if that is a name, on nothing
behind the token that follows it. -/
theorem exists_lookahead_of_error {ts : List Token} {f : Failure}
    (h : readStatements ts = .error f) :
    ∃ before, ts = before ++ f.rest ∧
      ((∀ other, other.head? = f.rest.head? →
        readStatements (before ++ other) = .error ⟨f.expected, other⟩) ∨
      ∃ t us, f = ⟨.statement, t :: us⟩ ∧ t.kind = .identifier ∧
        ∀ other, other.head? = us.head? →
          readStatements (before ++ t :: other) = .error ⟨.statement, t :: other⟩) := by
  obtain ⟨read, bad, stmts, rfl, hne, hread, hbad⟩ := readStatements_eq_error_iff.1 h
  rcases oneAheadAt_readStatement bad with ⟨inner, hrest, hinner⟩ | hname
  · rw [hbad] at hrest hinner
    have hrest : bad = inner ++ f.rest := hrest
    refine ⟨read ++ inner, by rw [hrest, List.append_assoc], .inl fun other hother => ?_⟩
    have hne' : inner ++ other ≠ [] := by
      intro hnil
      obtain ⟨rfl, rfl⟩ := List.append_eq_nil_iff.1 hnil
      exact hne (by rw [hrest, List.nil_append, List.head?_eq_none_iff.1 hother.symm])
    rw [List.append_assoc]
    exact readStatements_eq_error_iff.2 ⟨read, _, stmts, rfl, hne', hread, hinner other hother⟩
  · obtain rfl := Except.error.inj (hbad.symm.trans hname.readStatement_eq)
    obtain ⟨ht, hts⟩ := hname
    refine ⟨read, rfl, .inr ⟨_, _, rfl, ht, fun other hother => ?_⟩⟩
    have hname' := LoneName.mk ht (hother.symm ▸ hts)
    exact readStatements_eq_error_iff.2
      ⟨read, _, stmts, rfl, by simp, hread, hname'.readStatement_eq⟩

/-! ### Errors -/

/-- What parsing from a cursor can do. -/
theorem Cursor.parse_cases (c : Cursor) :
    (∃ stmts, readStatements c.rest = .ok stmts ∧
      c.parse = (.ok ⟨stmts⟩, ⟨c.pos + c.rest.length, []⟩)) ∨
    ∃ before f, c.rest = before ++ f.rest ∧ readStatements c.rest = .error f ∧
      c.parse = (.error ⟨c.pos + before.length, f.rest.head?, f.expected.message⟩,
        ⟨c.pos + before.length, f.rest⟩) := by
  unfold Cursor.parse
  cases h : readStatements c.rest with
  | ok stmts => exact .inl ⟨stmts, rfl, rfl⟩
  | error f =>
    obtain ⟨before, _, _, hrest, -⟩ := exists_derivesStmts_of_error h
    refine .inr ⟨before, f, hrest, rfl, ?_⟩
    simp [error, advanceTo, hrest]

/-- The position of an error is the number of tokens before those at which reading fails. -/
theorem parse_eq_error_iff {ts : List Token} {e : SyntaxError} :
    parse ts = .error e ↔ ∃ before f, ts = before ++ f.rest ∧ readStatements ts = .error f ∧
      e = ⟨before.length, f.rest.head?, f.expected.message⟩ := by
  have hzero : (Cursor.start ts).pos = 0 := rfl
  rcases (Cursor.start ts).parse_cases with
    ⟨stmts, hread, hparse⟩ | ⟨before, f, hrest, hread, hparse⟩
  · rw [parse, hparse]
    constructor
    · intro h
      cases h
    · rintro ⟨_, f, _, hread', _⟩
      cases hread.symm.trans hread'
  · rw [parse, hparse, hzero, Nat.zero_add]
    constructor
    · intro h
      exact ⟨before, f, hrest, hread, (Except.error.inj h).symm⟩
    · rintro ⟨before', f', hrest', hread', rfl⟩
      obtain rfl := Except.error.inj (hread.symm.trans hread')
      rw [List.append_cancel_right (hrest.symm.trans hrest')]

/-- A name stands where a statement is expected. -/
def SyntaxError.AtName (e : SyntaxError) : Prop :=
  e.expected = "Expect statement." ∧ ∃ t, e.found = some t ∧ t.kind = .identifier

/-- A list that begins with the same tokens. -/
theorem exists_append_of_take_eq {us : List Token} (before seen rest : List Token)
    (h : us.take (before.length + seen.length) =
      (before ++ (seen ++ rest)).take (before.length + seen.length)) :
    ∃ other, us = before ++ (seen ++ other) := by
  rw [← List.append_assoc, ← List.length_append, List.take_left] at h
  obtain ⟨other, rfl⟩ := List.prefix_iff_eq_take.2 h.symm
  exact ⟨other, List.append_assoc before seen other⟩

/-- An error is at the first token that no program has there: the tokens before it are the beginning
of a program, and every list of tokens that begins alike up to it has the same error. If it is a
name where a statement is expected, then the lists have to agree on the next token too. -/
theorem parse_error_earliest {ts : List Token} {e : SyntaxError} (h : parse ts = .error e) :
    e.pos ≤ ts.length ∧ e.found = ts[e.pos]? ∧ (e.found = none ↔ e.pos = ts.length) ∧
      (∃ us p, parse (ts.take e.pos ++ us) = .ok p) ∧
      (e.pos < ts.length → ¬ e.AtName →
        ∀ us, us.take (e.pos + 1) = ts.take (e.pos + 1) → parse us = .error e) ∧
      (e.AtName → e.pos + 1 = ts.length ∨
        ∀ us, us.take (e.pos + 2) = ts.take (e.pos + 2) → parse us = .error e) := by
  obtain ⟨before, ⟨x, rest⟩, rfl, hread, rfl⟩ := parse_eq_error_iff.1 h
  obtain ⟨before', after, stmts, heq, hstmts⟩ := exists_derivesStmts_of_error hread
  obtain rfl := List.append_cancel_right heq
  obtain ⟨before', heq, hahead⟩ := exists_lookahead_of_error hread
  obtain rfl := List.append_cancel_right heq
  refine ⟨by simp, ?_, by simp, ⟨after, ⟨stmts⟩, ?_⟩, ?_, ?_⟩
  · rw [List.getElem?_append_right (Nat.le_refl _), Nat.sub_self, List.head?_eq_getElem?]
  · rw [List.take_left]
    exact parse_eq_ok_iff.2 hstmts
  · intro hlt hname us hus
    cases rest with
    | nil => simp at hlt
    | cons t rest =>
      obtain ⟨other, rfl⟩ : ∃ other, us = before ++ t :: other :=
        exists_append_of_take_eq before [t] rest hus
      rcases hahead with hahead | ⟨_, _, hf, ht, -⟩
      · exact parse_eq_error_iff.2 ⟨before, _, rfl, hahead (t :: other) rfl, rfl⟩
      · cases hf
        exact absurd ⟨rfl, t, rfl, ht⟩ hname
  · rintro ⟨-, t, hfound, -⟩
    obtain ⟨rest, rfl⟩ := List.head?_eq_some_iff.1 hfound
    cases rest with
    | nil => exact .inl (by simp)
    | cons u rest =>
      refine .inr fun us hus => ?_
      obtain ⟨other, rfl⟩ : ∃ other, us = before ++ t :: u :: other :=
        exists_append_of_take_eq before [t, u] rest hus
      rcases hahead with hahead | ⟨_, _, hf, -, hahead⟩
      · exact parse_eq_error_iff.2 ⟨before, _, rfl, hahead (t :: u :: other) rfl, rfl⟩
      · cases hf
        exact parse_eq_error_iff.2 ⟨before, _, rfl, hahead (u :: other) rfl, rfl⟩

/-- A missing semicolon, found at the token behind it, and a name that opens no statement, found
before the operator that follows it. -/
theorem parse_error_earliest_operator :
    (∀ us, us.take 5 = (tokenize "int a = 1 print a;").take 5 → parse us = .error
      ⟨4, some ⟨.keyword, "print", 1⟩, "Expect ';' after variable declaration."⟩) ∧
    ∀ us, us.take 5 = (tokenize "int a; a + 1;").take 5 → parse us = .error
      ⟨3, some ⟨.identifier, "a", 1⟩, "Expect statement."⟩ := by
  have hend : parse (tokenize "int a = 1 print a;") = .error
      ⟨4, some ⟨.keyword, "print", 1⟩, "Expect ';' after variable declaration."⟩ := by
    decide +kernel
  have hname : parse (tokenize "int a; a + 1;") = .error
      ⟨3, some ⟨.identifier, "a", 1⟩, "Expect statement."⟩ := by
    decide +kernel
  constructor
  · exact (parse_error_earliest hend).2.2.2.2.1 (by decide +kernel) fun h => absurd h.1 (by decide)
  · refine ((parse_error_earliest hname).2.2.2.2.2 ⟨rfl, _, rfl, rfl⟩).resolve_left ?_
    decide +kernel

end ThreeAddress
