import ThreeAddress.Proofs.Grammar
import ThreeAddress.Proofs.Lexeme

/-!
# The texts in a parsed program

A parsed program takes the texts of its numbers and names from the tokens of these categories, so
what holds of the tokens holds of the program (`texts_of_parse`). In a program that is parsed from
a text, numbers are numerals and names are not (`Spelled`, `spelled_of_parse`).
-/

namespace ThreeAddress

section

variable (number name : String → Prop)

/-- The text of the token satisfies `number` if the token is a number, and `name` if it is a
name. -/
def Token.Texts (t : Token) : Prop :=
  match t.kind with
  | .number | .floatNumber => number t.text
  | .identifier => name t.text
  | _ => True

/-- Every number in the expression satisfies `number`, and every name `name`. -/
def Expr.Texts : Expr → Prop
  | .number text => number text
  | .identifier text => name text
  | .binary _ left right => left.Texts ∧ right.Texts

def Stmt.Texts : Stmt → Prop
  | .declaration _ x init => name x ∧ ∀ e ∈ init, e.Texts number name
  | .assignment x value => name x ∧ value.Texts number name
  | .print x => name x

variable [DecidablePred number] [DecidablePred name]

instance Expr.decidableTexts : (e : Expr) → Decidable (e.Texts number name)
  | .number text => inferInstanceAs (Decidable (number text))
  | .identifier text => inferInstanceAs (Decidable (name text))
  | .binary _ left right =>
    have := decidableTexts left
    have := decidableTexts right
    inferInstanceAs (Decidable (_ ∧ _))

instance Stmt.decidableTexts : (s : Stmt) → Decidable (s.Texts number name)
  | .declaration _ x init => inferInstanceAs (Decidable (name x ∧ ∀ e ∈ init, e.Texts number name))
  | .assignment x value => inferInstanceAs (Decidable (name x ∧ value.Texts number name))
  | .print x => inferInstanceAs (Decidable (name x))

end

section

variable {number name : String → Prop}

theorem Token.Texts.name_of_identifier {t : Token} (h : t.Texts number name)
    (ht : t.kind = .identifier) : name t.text := by
  simpa [Token.Texts, ht] using h

theorem DerivesFactor.texts {t : Token} {e : Expr} (h : DerivesFactor t e)
    (ht : t.Texts number name) : e.Texts number name := by
  rcases h with hk | hk | hk <;> simpa [Token.Texts, Expr.Texts, hk] using ht

theorem DerivesTerm.texts {ts : List Token} {e : Expr} (h : DerivesTerm ts e)
    (hts : ∀ t ∈ ts, t.Texts number name) : e.Texts number name := by
  induction h with
  | factor h => exact h.texts (hts _ (by simp))
  | link _ _ _ hright ih =>
    refine ⟨ih fun t ht => ?_, hright.texts (hts _ (by simp))⟩
    exact hts t (by simp [ht])

theorem DerivesExpr.texts {ts : List Token} {e : Expr} (h : DerivesExpr ts e)
    (hts : ∀ t ∈ ts, t.Texts number name) : e.Texts number name := by
  induction h with
  | term h => exact h.texts hts
  | link _ _ _ hright ih =>
    refine ⟨ih fun t ht => ?_, hright.texts fun t ht => ?_⟩
    · exact hts t (by simp [ht])
    · exact hts t (by simp [ht])

theorem DerivesInit.texts {ts : List Token} {init : Option Expr} (h : DerivesInit ts init)
    (hts : ∀ t ∈ ts, t.Texts number name) : ∀ e ∈ init, e.Texts number name := by
  rcases h with _ | ⟨_, he⟩
  · simp
  · rintro e ⟨⟩
    exact he.texts fun t ht => hts t (by simp [ht])

theorem DerivesStmt.texts {ts : List Token} {s : Stmt} (h : DerivesStmt ts s)
    (hts : ∀ t ∈ ts, t.Texts number name) : s.Texts number name := by
  cases h with
  | declaration _ hx hinit _ =>
    refine ⟨(hts _ (by simp)).name_of_identifier hx, hinit.texts fun t ht => ?_⟩
    exact hts t (by simp [ht])
  | assignment hx _ he _ =>
    refine ⟨(hts _ (by simp)).name_of_identifier hx, he.texts fun t ht => ?_⟩
    exact hts t (by simp [ht])
  | print _ _ _ hx _ => exact (hts _ (by simp)).name_of_identifier hx

theorem DerivesStmts.texts {ts : List Token} {stmts : List Stmt} (h : DerivesStmts ts stmts)
    (hts : ∀ t ∈ ts, t.Texts number name) : ∀ s ∈ stmts, s.Texts number name := by
  induction h with
  | nil => simp
  | cons h _ ih =>
    intro s hs
    rcases List.mem_cons.1 hs with rfl | hs
    · exact h.texts fun t ht => hts t (by simp [ht])
    · exact ih (fun t ht => hts t (by simp [ht])) s hs

theorem texts_of_parse {ts : List Token} {p : Program} (h : parse ts = .ok p)
    (hts : ∀ t ∈ ts, t.Texts number name) : ∀ s ∈ p.stmts, s.Texts number name :=
  DerivesStmts.texts (parse_eq_ok_iff.1 h) hts

variable {number' name' P Q : String → Prop}

theorem Expr.Texts.imp₂ {e : Expr} (h : e.Texts number name) (h' : e.Texts number' name')
    (hnumber : ∀ x, number x → number' x → P x) (hname : ∀ x, name x → name' x → Q x) :
    e.Texts P Q := by
  induction e with
  | number text => exact hnumber text h h'
  | identifier x => exact hname x h h'
  | binary op left right ihl ihr => exact ⟨ihl h.1 h'.1, ihr h.2 h'.2⟩

theorem Stmt.Texts.imp₂ {s : Stmt} (h : s.Texts number name) (h' : s.Texts number' name')
    (hnumber : ∀ x, number x → number' x → P x) (hname : ∀ x, name x → name' x → Q x) :
    s.Texts P Q := by
  cases s with
  | declaration ty x init =>
    exact ⟨hname x h.1 h'.1, fun e he => (h.2 e he).imp₂ (h'.2 e he) hnumber hname⟩
  | assignment x value => exact ⟨hname x h.1 h'.1, h.2.imp₂ h'.2 hnumber hname⟩
  | print x => exact hname x h h'

end

/-! ### Numbers and names of a text -/

/-- The numbers of the expression are numerals, and its names are not. -/
def Expr.Spelled (e : Expr) : Prop :=
  e.Texts IsNumeral (¬ IsNumeral ·)

def Stmt.Spelled (s : Stmt) : Prop :=
  s.Texts IsNumeral (¬ IsNumeral ·)

/-- A text that can be the name of a variable. -/
def IsName (text : String) : Prop :=
  Token.Kind.identifier.Matches text.toList

theorem Token.Matches.texts {number name : String → Prop} {t : Token} (h : t.Matches)
    (hnumber : ∀ x, IsNumeral x → number x) (hname : ∀ x, IsName x → name x) :
    t.Texts number name := by
  unfold Token.Matches at h
  unfold Token.Texts
  split
  · next hk => rw [hk] at h; exact hnumber _ (.inl h)
  · next hk => rw [hk] at h; exact hnumber _ (.inr h)
  · next hk => rw [hk] at h; exact hname _ h
  · trivial

theorem named_of_parse {source : String} {p : Program} (h : parse (tokenize source) = .ok p) :
    ∀ s ∈ p.stmts, s.Texts IsNumeral IsName :=
  texts_of_parse h fun _ ht => (matches_of_mem_tokenize ht).texts (fun _ hx => hx) fun _ hx => hx

theorem spelled_of_parse {source : String} {p : Program} (h : parse (tokenize source) = .ok p) :
    ∀ s ∈ p.stmts, s.Spelled :=
  texts_of_parse h fun _ ht => (matches_of_mem_tokenize ht).texts (fun _ hx => hx)
    fun _ hx => not_isNumeral_of_isWord hx.1

end ThreeAddress
