import ThreeAddress.Program.Cursor

/-!
# What readers see of the tokens

Readers leave an end of the tokens they are given, whether they succeed or fail (`Reading.Within`),
so an error has a position among these tokens. They look only at the categories and texts of the
tokens: if a map of tokens keeps the categories, and the texts except that it renames names,
then reading the changed tokens gives the renamed result and leaves the changed rest
(`Relabels.readStatement`, `Relabels.parse`).
-/

namespace ThreeAddress

/-! ### The rest is an end of the tokens -/

/-- What the reading leaves, or where it fails, is an end of `ts`. -/
def Reading.Within {α : Type} (ts : List Token) : Reading α → Prop
  | .ok (_, rest) => rest <:+ ts
  | .error f => f.rest <:+ ts

namespace Reading

variable {α β : Type} {ts us : List Token}

theorem Within.mono {r : Reading α} (h : r.Within us) (hus : us <:+ ts) : r.Within ts := by
  match r with
  | .ok (_, _) => exact List.IsSuffix.trans h hus
  | .error _ => exact List.IsSuffix.trans h hus

theorem Within.andThen {r : Reading α} {next : α → List Token → Reading β} (h : r.Within ts)
    (hnext : ∀ a rest, (next a rest).Within rest) : (r.andThen next).Within ts := by
  match r with
  | .ok (a, rest) => exact (hnext a rest).mono h
  | .error _ => exact h

end Reading

theorem within_readLinks (ts : List Token) : (readLinks ts).Within ts := by
  fun_induction readLinks ts with
  | case1 | case2 => exact List.suffix_rfl
  | case3 t op ht => exact List.suffix_cons t []
  | case4 t op ht u rest hu => exact List.suffix_cons t (u :: rest)
  | case5 t op ht u rest right hu ih =>
    refine (ih.andThen fun links rest => ?_).mono ⟨[t, u], rfl⟩
    exact List.suffix_rfl

theorem within_readExpression (ts : List Token) : (readExpression ts).Within ts := by
  unfold readExpression
  split
  · exact List.suffix_rfl
  · next t ts =>
    split
    · exact List.suffix_rfl
    · refine ((within_readLinks ts).andThen fun links rest => ?_).mono (List.suffix_cons t ts)
      exact List.suffix_rfl

theorem within_readName (expected : Expected) (ts : List Token) :
    (readName expected ts).Within ts := by
  unfold readName
  split
  · exact List.suffix_rfl
  · next t ts =>
    split
    · exact List.suffix_cons t ts
    · exact List.suffix_rfl

theorem within_readSemicolon (expected : Expected) (ts : List Token) :
    (readSemicolon expected ts).Within ts := by
  unfold readSemicolon
  split
  · exact List.suffix_rfl
  · next t ts =>
    split
    · exact List.suffix_cons t ts
    · exact List.suffix_rfl

theorem within_readInitializer (ts : List Token) : (readInitializer ts).Within ts := by
  unfold readInitializer
  split
  · exact List.suffix_rfl
  · next t ts =>
    split
    · refine ((within_readExpression ts).andThen fun value rest => ?_).mono (List.suffix_cons t ts)
      exact List.suffix_rfl
    · exact List.suffix_rfl

theorem within_readDeclaration (ty : Ty) (ts : List Token) : (readDeclaration ty ts).Within ts := by
  refine (within_readName _ ts).andThen fun name ts => ?_
  refine (within_readInitializer ts).andThen fun init ts => ?_
  refine (within_readSemicolon _ ts).andThen fun _ ts => ?_
  exact List.suffix_rfl

theorem within_readAssignment (name : String) (ts : List Token) :
    (readAssignment name ts).Within ts := by
  refine (within_readExpression ts).andThen fun value ts => ?_
  refine (within_readSemicolon _ ts).andThen fun _ ts => ?_
  exact List.suffix_rfl

theorem within_readPrint (ts : List Token) : (readPrint ts).Within ts := by
  refine (within_readName _ ts).andThen fun name ts => ?_
  refine (within_readSemicolon _ ts).andThen fun _ ts => ?_
  exact List.suffix_rfl

theorem within_readStatement (ts : List Token) : (readStatement ts).Within ts := by
  unfold readStatement
  split
  · exact List.suffix_rfl
  next t ts =>
  split
  · split
    · exact (within_readDeclaration _ ts).mono (List.suffix_cons t ts)
    · exact (within_readPrint ts).mono (List.suffix_cons t ts)
  · split
    · exact List.suffix_rfl
    next u rest =>
    split
    · exact (within_readAssignment _ rest).mono ⟨[t, u], rfl⟩
    · exact List.suffix_rfl
  · exact List.suffix_rfl

theorem suffix_of_readStatements {ts : List Token} {f : Failure}
    (h : readStatements ts = .error f) : f.rest <:+ ts := by
  fun_induction readStatements ts with
  | case1 => cases h
  | case2 t ts f' hf =>
    have hwithin := within_readStatement (t :: ts)
    rw [hf] at hwithin
    cases h
    exact hwithin
  | case3 t ts s rest hs _ ih =>
    have hwithin := within_readStatement (t :: ts)
    rw [hs] at hwithin
    cases hrest : readStatements rest with
    | ok stmts => rw [hrest] at h; cases h
    | error f' =>
      rw [hrest] at h
      cases h
      exact (ih hrest).trans hwithin

/-! ### Relabelled tokens -/

def Expr.rename (r : String → String) : Expr → Expr
  | number text => .number text
  | identifier name => .identifier (r name)
  | binary op left right => .binary op (left.rename r) (right.rename r)

def Stmt.rename (r : String → String) : Stmt → Stmt
  | declaration ty name init => .declaration ty (r name) (init.map (Expr.rename r))
  | assignment name value => .assignment (r name) (value.rename r)
  | print name => .print (r name)

theorem Expr.rename_id (e : Expr) : e.rename id = e := by
  induction e with
  | number | identifier => rfl
  | binary op left right ihl ihr => rw [rename, ihl, ihr]

@[simp] theorem Stmt.rename_id : Stmt.rename id = id := by
  funext s
  cases s with
  | declaration ty name init => cases init <;> simp [rename, Expr.rename_id]
  | assignment => simp [rename, Expr.rename_id]
  | print => rfl

def Failure.map (f : Token → Token) (x : Failure) : Failure :=
  ⟨x.expected, x.rest.map f⟩

/-- The reading with its result changed by `g` and the tokens it leaves by `f`. -/
def Reading.map {α β : Type} (g : α → β) (f : Token → Token) : Reading α → Reading β
  | .ok (a, rest) => .ok (g a, rest.map f)
  | .error x => .error (x.map f)

theorem Reading.andThen_map {α β α' β' : Type} {f : Token → Token} {g : α → α'} {h : β → β'}
    {next : α → List Token → Reading β} {next' : α' → List Token → Reading β'} (r : Reading α)
    (hnext : ∀ a rest, next' (g a) (rest.map f) = (next a rest).map h f) :
    (r.map g f).andThen next' = (r.andThen next).map h f := by
  match r with
  | .ok (a, rest) => exact hnext a rest
  | .error _ => rfl

def renameLinks (r : String → String) (links : List (BinOp × Expr)) : List (BinOp × Expr) :=
  links.map fun link => (link.1, link.2.rename r)

theorem rename_assemble {r : String → String} {sum sum' : Expr → Expr}
    (hsum : ∀ e, (sum e).rename r = sum' (e.rename r)) (product : Expr)
    (links : List (BinOp × Expr)) :
    (assemble sum product links).rename r =
      assemble sum' (product.rename r) (renameLinks r links) := by
  induction links generalizing sum sum' product with
  | nil => exact hsum product
  | cons link links ih =>
    rw [renameLinks, List.map_cons, assemble, assemble]
    split
    · exact ih hsum _
    · refine ih (fun e => ?_) _
      rw [Expr.rename, hsum]

/-- `f` keeps the category of a token, and its text unless the token is a name, which it changes
as `r` does. -/
structure Relabels (f : Token → Token) (r : String → String) : Prop where
  kind : ∀ t, (f t).kind = t.kind
  text : ∀ t, t.kind ≠ .identifier → (f t).text = t.text
  name : ∀ t, t.kind = .identifier → (f t).text = r t.text

namespace Relabels

variable {f : Token → Token} {r : String → String}

theorem operand? (h : Relabels f r) (t : Token) :
    (f t).operand? = t.operand?.map (Expr.rename r) := by
  unfold Token.operand?
  rw [h.kind]
  cases hk : t.kind with
  | number | floatNumber => simp [h.text t (by simp [hk]), Expr.rename]
  | identifier => simp [h.name t hk, Expr.rename]
  | keyword | assignment | operator | separator => rfl

theorem operator? (h : Relabels f r) (t : Token) : (f t).operator? = t.operator? := by
  unfold Token.operator?
  rw [h.kind]
  cases hk : t.kind with
  | operator => simp [h.text t (by simp [hk])]
  | _ => rfl

theorem readLinks (h : Relabels f r) (ts : List Token) :
    ThreeAddress.readLinks (ts.map f) = (ThreeAddress.readLinks ts).map (renameLinks r) f := by
  fun_induction ThreeAddress.readLinks ts with
  | case1 => rfl
  | case2 t ts ht => simp [ThreeAddress.readLinks, h.operator?, ht, Reading.map, renameLinks]
  | case3 t op ht => simp [ThreeAddress.readLinks, h.operator?, ht, Reading.map, Failure.map]
  | case4 t op ht u rest hu =>
    simp [ThreeAddress.readLinks, h.operator?, ht, h.operand?, hu, Reading.map, Failure.map]
  | case5 t op ht u rest right hu ih =>
    simp only [List.map_cons, ThreeAddress.readLinks, h.operator?, ht, h.operand?, hu,
      Option.map_some, ih]
    exact Reading.andThen_map _ fun links rest => rfl

theorem readExpression (h : Relabels f r) (ts : List Token) :
    ThreeAddress.readExpression (ts.map f) =
      (ThreeAddress.readExpression ts).map (Expr.rename r) f := by
  cases ts with
  | nil => rfl
  | cons t ts =>
    simp only [List.map_cons, ThreeAddress.readExpression, h.operand?]
    cases t.operand? with
    | none => rfl
    | some first =>
      rw [Option.map_some, h.readLinks]
      refine Reading.andThen_map _ fun links rest => ?_
      have hid : ∀ e : Expr, (id e).rename r = id (e.rename r) := fun _ => rfl
      rw [Reading.map, rename_assemble hid]

theorem readName (h : Relabels f r) (expected : Expected) (ts : List Token) :
    ThreeAddress.readName expected (ts.map f) = (ThreeAddress.readName expected ts).map r f := by
  cases ts with
  | nil => rfl
  | cons t ts =>
    simp only [List.map_cons, ThreeAddress.readName, h.kind]
    cases hk : t.kind with
    | identifier => simp [h.name t hk, Reading.map]
    | _ => rfl

theorem readSemicolon (h : Relabels f r) (expected : Expected) (ts : List Token) :
    ThreeAddress.readSemicolon expected (ts.map f) =
      (ThreeAddress.readSemicolon expected ts).map id f := by
  cases ts with
  | nil => rfl
  | cons t ts =>
    have his : (f t).is .separator ";" = t.is .separator ";" := by
      rw [Bool.eq_iff_iff, Token.is_eq_true_iff, Token.is_eq_true_iff, h.kind]
      refine and_congr_right fun hk => ?_
      rw [h.text t (by simp [hk])]
    simp only [List.map_cons, ThreeAddress.readSemicolon, his]
    split <;> rfl

theorem readInitializer (h : Relabels f r) (ts : List Token) :
    ThreeAddress.readInitializer (ts.map f) =
      (ThreeAddress.readInitializer ts).map (Option.map (Expr.rename r)) f := by
  cases ts with
  | nil => rfl
  | cons t ts =>
    simp only [List.map_cons, ThreeAddress.readInitializer, h.kind]
    cases t.kind with
    | assignment =>
      rw [h.readExpression]
      exact Reading.andThen_map _ fun value rest => rfl
    | _ => rfl

theorem readDeclaration (h : Relabels f r) (ty : Ty) (ts : List Token) :
    ThreeAddress.readDeclaration ty (ts.map f) =
      (ThreeAddress.readDeclaration ty ts).map (Stmt.rename r) f := by
  unfold ThreeAddress.readDeclaration
  rw [h.readName]
  refine Reading.andThen_map _ fun name ts => ?_
  rw [h.readInitializer]
  refine Reading.andThen_map _ fun init ts => ?_
  rw [h.readSemicolon]
  exact Reading.andThen_map _ fun _ ts => rfl

theorem readAssignment (h : Relabels f r) (name : String) (ts : List Token) :
    ThreeAddress.readAssignment (r name) (ts.map f) =
      (ThreeAddress.readAssignment name ts).map (Stmt.rename r) f := by
  unfold ThreeAddress.readAssignment
  rw [h.readExpression]
  refine Reading.andThen_map _ fun value ts => ?_
  rw [h.readSemicolon]
  exact Reading.andThen_map _ fun _ ts => rfl

theorem readPrint (h : Relabels f r) (ts : List Token) :
    ThreeAddress.readPrint (ts.map f) = (ThreeAddress.readPrint ts).map (Stmt.rename r) f := by
  unfold ThreeAddress.readPrint
  rw [h.readName]
  refine Reading.andThen_map _ fun name ts => ?_
  rw [h.readSemicolon]
  exact Reading.andThen_map _ fun _ ts => rfl

theorem readStatement (h : Relabels f r) (ts : List Token) :
    ThreeAddress.readStatement (ts.map f) =
      (ThreeAddress.readStatement ts).map (Stmt.rename r) f := by
  cases ts with
  | nil => rfl
  | cons t ts =>
    simp only [List.map_cons, ThreeAddress.readStatement, h.kind]
    cases hk : t.kind with
    | keyword =>
      simp only [h.text t (by simp [hk])]
      cases Ty.ofKeyword? t.text with
      | some ty => exact h.readDeclaration ty ts
      | none => exact h.readPrint ts
    | identifier =>
      cases ts with
      | nil => rfl
      | cons u rest =>
        simp only [List.map_cons, h.kind, h.name t hk]
        cases u.kind with
        | assignment => exact h.readAssignment t.text rest
        | _ => rfl
    | _ => rfl

/-- Reading to the end of relabelled tokens, with the failure or the statements relabelled. -/
theorem readStatements (h : Relabels f r) (ts : List Token) :
    ThreeAddress.readStatements (ts.map f) =
      match ThreeAddress.readStatements ts with
      | .ok stmts => .ok (stmts.map (Stmt.rename r))
      | .error x => .error (x.map f) := by
  fun_induction ThreeAddress.readStatements ts with
  | case1 => simp
  | case2 t ts x hx =>
    refine readStatements_of_error (by simp) ?_
    rw [h.readStatement, hx]
    rfl
  | case3 t ts s rest hs _ ih =>
    have hs' : ThreeAddress.readStatement ((t :: ts).map f) = .ok (s.rename r, rest.map f) := by
      rw [h.readStatement, hs]
      rfl
    rw [readStatements_of_ok hs', ih]
    cases ThreeAddress.readStatements rest <;> rfl

theorem parse (h : Relabels f r) (ts : List Token) :
    ThreeAddress.parse (ts.map f) =
      match ThreeAddress.parse ts with
      | .ok p => .ok ⟨p.stmts.map (Stmt.rename r)⟩
      | .error e => .error { e with found := e.found.map f } := by
  unfold ThreeAddress.parse Cursor.parse Cursor.start
  rw [h.readStatements]
  cases ThreeAddress.readStatements ts with
  | ok stmts => rfl
  | error x => simp [Cursor.error, Cursor.advanceTo, Failure.map]

end Relabels

end ThreeAddress
