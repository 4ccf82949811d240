import ThreeAddress.Program.Basic
import ThreeAddress.Token.Basic

/-!
# Parsing

The grammar, over tokens:

    Program     = { Statement }
    Statement   = Type name [ "=" Expression ] ";"
                | name "=" Expression ";"
                | "print" name ";"
    Expression  = Term { ("+" | "-") Term }
    Term        = Operand { ("*" | "/") Operand }
    Operand     = number | name

Each reader takes the tokens that are left and gives what it read with the tokens after it, or a
failure: what it expected and the tokens from the offending one on. An expression is first read as
a chain of operands, and `assemble` then makes a tree of the chain. A keyword that names no type
opens a print statement whatever its text is.
-/

namespace ThreeAddress

inductive Expected
  | statement
  | declaredName
  | printedName
  | declarationEnd
  | assignmentEnd
  | printEnd
  | expression
deriving Repr, DecidableEq

def Expected.message : Expected → String
  | statement => "Expect statement."
  | declaredName => "Expect variable name."
  | printedName => "Expect variable name after 'print'."
  | declarationEnd => "Expect ';' after variable declaration."
  | assignmentEnd => "Expect ';' after assignment."
  | printEnd => "Expect ';' after print statement."
  | expression => "Expect expression."

/-- A failure to read: what was expected in front of the tokens `rest`. -/
structure Failure where
  expected : Expected
  rest : List Token
deriving Repr, DecidableEq

/-- What was read and the tokens after it, or a failure. -/
abbrev Reading (α : Type) := Except Failure (α × List Token)

namespace Reading

variable {α β : Type}

/-- Reads on behind what was read; a failure stays. -/
def andThen (r : Reading α) (next : α → List Token → Reading β) : Reading β :=
  match r with
  | .error f => .error f
  | .ok (a, rest) => next a rest

@[simp] theorem andThen_ok (a : α) (rest : List Token) (next : α → List Token → Reading β) :
    andThen (.ok (a, rest)) next = next a rest := rfl

@[simp] theorem andThen_error (f : Failure) (next : α → List Token → Reading β) :
    andThen (.error f) next = .error f := rfl

theorem andThen_eq_ok_iff {r : Reading α} {next : α → List Token → Reading β}
    {b : β × List Token} :
    r.andThen next = .ok b ↔ ∃ a rest, r = .ok (a, rest) ∧ next a rest = .ok b := by
  match r with
  | .error f => simp
  | .ok (a, rest) =>
    constructor
    · exact fun h => ⟨a, rest, rfl, h⟩
    · rintro ⟨_, _, ⟨⟩, h⟩
      exact h

end Reading

/-! ### Expressions -/

/-- The operand that a token is. -/
def Token.operand? (t : Token) : Option Expr :=
  match t.kind with
  | .number | .floatNumber => some (.number t.text)
  | .identifier => some (.identifier t.text)
  | _ => none

/-- The arithmetic operator that a token is. -/
def Token.operator? (t : Token) : Option BinOp :=
  match t.kind with
  | .operator => BinOp.ofSymbol? t.text
  | _ => none

/-- Reads operators, each with the operand behind it, up to the first token that is no operator. -/
def readLinks : List Token → Reading (List (BinOp × Expr))
  | [] => .ok ([], [])
  | t :: ts =>
    match t.operator? with
    | none => .ok ([], t :: ts)
    | some op =>
      match ts with
      | [] => .error ⟨.expression, []⟩
      | u :: rest =>
        match u.operand? with
        | none => .error ⟨.expression, u :: rest⟩
        | some right =>
          (readLinks rest).andThen fun links rest => .ok ((op, right) :: links, rest)

/-- The tree of a chain that starts with `product`, inside the sum `sum`: `*` and `/` extend the
product, `+` and `-` close it and start the next one, and equal operators group to the left. -/
def assemble (sum : Expr → Expr) (product : Expr) : List (BinOp × Expr) → Expr
  | [] => sum product
  | (op, right) :: links =>
    if op.isMultiplicative then assemble sum (.binary op product right) links
    else assemble (.binary op (sum product)) right links

def readExpression : List Token → Reading Expr
  | [] => .error ⟨.expression, []⟩
  | t :: ts =>
    match t.operand? with
    | none => .error ⟨.expression, t :: ts⟩
    | some first =>
      (readLinks ts).andThen fun links rest => .ok (assemble id first links, rest)

/-! ### Statements -/

def readName (expected : Expected) : List Token → Reading String
  | [] => .error ⟨expected, []⟩
  | t :: ts =>
    match t.kind with
    | .identifier => .ok (t.text, ts)
    | _ => .error ⟨expected, t :: ts⟩

/-- Reads the semicolon that ends a statement. -/
def readSemicolon (expected : Expected) : List Token → Reading Unit
  | [] => .error ⟨expected, []⟩
  | t :: ts => if t.is .separator ";" then .ok ((), ts) else .error ⟨expected, t :: ts⟩

/-- Reads the initial value of a declaration, if there is one. -/
def readInitializer : List Token → Reading (Option Expr)
  | [] => .ok (none, [])
  | t :: ts =>
    match t.kind with
    | .assignment => (readExpression ts).andThen fun value rest => .ok (some value, rest)
    | _ => .ok (none, t :: ts)

/-- Reads a declaration from behind its type. -/
def readDeclaration (ty : Ty) (ts : List Token) : Reading Stmt :=
  (readName .declaredName ts).andThen fun name ts =>
  (readInitializer ts).andThen fun init ts =>
  (readSemicolon .declarationEnd ts).andThen fun _ ts =>
  .ok (.declaration ty name init, ts)

/-- Reads an assignment from behind its assignment sign. -/
def readAssignment (name : String) (ts : List Token) : Reading Stmt :=
  (readExpression ts).andThen fun value ts =>
  (readSemicolon .assignmentEnd ts).andThen fun _ ts =>
  .ok (.assignment name value, ts)

/-- Reads a print statement from behind its keyword. -/
def readPrint (ts : List Token) : Reading Stmt :=
  (readName .printedName ts).andThen fun name ts =>
  (readSemicolon .printEnd ts).andThen fun _ ts =>
  .ok (.print name, ts)

/-- Reads a statement. An identifier opens one only if an assignment sign follows it. -/
def readStatement : List Token → Reading Stmt
  | [] => .error ⟨.statement, []⟩
  | t :: ts =>
    match t.kind with
    | .keyword =>
      match Ty.ofKeyword? t.text with
      | some ty => readDeclaration ty ts
      | none => readPrint ts
    | .identifier =>
      match ts with
      | [] => .error ⟨.statement, [t]⟩
      | u :: rest =>
        match u.kind with
        | .assignment => readAssignment t.text rest
        | _ => .error ⟨.statement, t :: u :: rest⟩
    | _ => .error ⟨.statement, t :: ts⟩

/-! ### Readers consume tokens -/

theorem length_of_readLinks {ts rest : List Token} {links : List (BinOp × Expr)}
    (h : readLinks ts = .ok (links, rest)) : rest.length ≤ ts.length := by
  fun_induction readLinks ts generalizing links rest with
  | case1 | case2 => cases h; exact Nat.le_refl _
  | case3 | case4 => cases h
  | case5 t op _ u tail right _ ih =>
    obtain ⟨_, _, hlinks, ⟨⟩⟩ := Reading.andThen_eq_ok_iff.1 h
    have := ih hlinks
    simp only [List.length_cons]
    omega

theorem length_of_readExpression {ts rest : List Token} {e : Expr}
    (h : readExpression ts = .ok (e, rest)) : rest.length < ts.length := by
  unfold readExpression at h
  split at h
  · cases h
  · split at h
    · cases h
    · obtain ⟨_, _, hlinks, ⟨⟩⟩ := Reading.andThen_eq_ok_iff.1 h
      have := length_of_readLinks hlinks
      simp only [List.length_cons]
      omega

theorem length_of_readName {expected : Expected} {ts rest : List Token} {name : String}
    (h : readName expected ts = .ok (name, rest)) : rest.length < ts.length := by
  unfold readName at h
  split at h
  · cases h
  · split at h <;> cases h
    simp

theorem length_of_readSemicolon {expected : Expected} {ts rest : List Token} {u : Unit}
    (h : readSemicolon expected ts = .ok (u, rest)) : rest.length < ts.length := by
  unfold readSemicolon at h
  split at h
  · cases h
  · split at h <;> cases h
    simp

theorem length_of_readInitializer {ts rest : List Token} {init : Option Expr}
    (h : readInitializer ts = .ok (init, rest)) : rest.length ≤ ts.length := by
  unfold readInitializer at h
  split at h
  · cases h; exact Nat.le_refl _
  · split at h
    · obtain ⟨_, _, hvalue, ⟨⟩⟩ := Reading.andThen_eq_ok_iff.1 h
      have := length_of_readExpression hvalue
      simp only [List.length_cons]
      omega
    · cases h; exact Nat.le_refl _

theorem length_of_readDeclaration {ty : Ty} {ts rest : List Token} {s : Stmt}
    (h : readDeclaration ty ts = .ok (s, rest)) : rest.length < ts.length := by
  obtain ⟨_, _, hname, h⟩ := Reading.andThen_eq_ok_iff.1 h
  obtain ⟨_, _, hinit, h⟩ := Reading.andThen_eq_ok_iff.1 h
  obtain ⟨_, _, hend, ⟨⟩⟩ := Reading.andThen_eq_ok_iff.1 h
  have := length_of_readName hname
  have := length_of_readInitializer hinit
  have := length_of_readSemicolon hend
  omega

theorem length_of_readAssignment {name : String} {ts rest : List Token} {s : Stmt}
    (h : readAssignment name ts = .ok (s, rest)) : rest.length < ts.length := by
  obtain ⟨_, _, hvalue, h⟩ := Reading.andThen_eq_ok_iff.1 h
  obtain ⟨_, _, hend, ⟨⟩⟩ := Reading.andThen_eq_ok_iff.1 h
  have := length_of_readExpression hvalue
  have := length_of_readSemicolon hend
  omega

theorem length_of_readPrint {ts rest : List Token} {s : Stmt}
    (h : readPrint ts = .ok (s, rest)) : rest.length < ts.length := by
  obtain ⟨_, _, hname, h⟩ := Reading.andThen_eq_ok_iff.1 h
  obtain ⟨_, _, hend, ⟨⟩⟩ := Reading.andThen_eq_ok_iff.1 h
  have := length_of_readName hname
  have := length_of_readSemicolon hend
  omega

/-- A statement takes at least one token. -/
theorem length_of_readStatement {ts rest : List Token} {s : Stmt}
    (h : readStatement ts = .ok (s, rest)) : rest.length < ts.length := by
  unfold readStatement at h
  split at h
  · cases h
  · split at h
    · split at h
      · have := length_of_readDeclaration h
        simp only [List.length_cons]
        omega
      · have := length_of_readPrint h
        simp only [List.length_cons]
        omega
    · split at h
      · cases h
      · split at h
        · have := length_of_readAssignment h
          simp only [List.length_cons]
          omega
        · cases h
    · cases h

/-! ### Programs -/

/-- Reads statements to the end of the tokens. -/
def readStatements : List Token → Except Failure (List Stmt)
  | [] => .ok []
  | t :: ts =>
    match h : readStatement (t :: ts) with
    | .error f => .error f
    | .ok (s, rest) =>
      have := length_of_readStatement h
      (readStatements rest).map (s :: ·)
termination_by ts => ts.length
decreasing_by exact this

@[simp] theorem readStatements_nil : readStatements [] = .ok [] := by rw [readStatements]

theorem readStatements_of_error {ts : List Token} {f : Failure} (hne : ts ≠ [])
    (h : readStatement ts = .error f) : readStatements ts = .error f := by
  cases ts with
  | nil => exact absurd rfl hne
  | cons t ts =>
    rw [readStatements]
    split
    · next hf => rw [h] at hf; cases hf; rfl
    · next hok => rw [h] at hok; cases hok

theorem readStatements_of_ok {ts rest : List Token} {s : Stmt}
    (h : readStatement ts = .ok (s, rest)) :
    readStatements ts = (readStatements rest).map (s :: ·) := by
  cases ts with
  | nil => cases h
  | cons t ts =>
    rw [readStatements]
    split
    · next hf => rw [h] at hf; cases hf
    · next hok => rw [h] at hok; cases hok; rfl

end ThreeAddress
