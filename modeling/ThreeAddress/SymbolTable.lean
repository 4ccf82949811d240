import Std.Data.HashMap
import ThreeAddress.Text.Line
import ThreeAddress.Program.Basic

/-!
# The symbol table

The variables in the order of their declaration, beside an index from names to positions; a table
carries the agreement of the two (`Indexes`). A name is declared once and keeps its type and its
place; only its value changes.

A value is the text of the expression last stored, with every variable in it replaced by the text
that was stored there; nothing is computed.
-/

namespace ThreeAddress

/-! ### Values -/

/-- The contents of a variable: nothing yet, a number, or a text put together from numbers. -/
inductive Value
  | uninitialized
  | literal (text : String)
  | composed (text : String)
deriving Repr, DecidableEq

namespace Value

/-- The stored text, if anything is stored. -/
def text? : Value → Option String
  | uninitialized => none
  | literal text | composed text => some text

def isInitialized (v : Value) : Bool :=
  v.text?.isSome

def render (v : Value) : String :=
  v.text?.getD "<uninitialized>"

end Value

/-! ### Tables -/

/-- A declared variable and what is known of its contents. -/
structure Entry where
  name : String
  ty : Ty
  value : Value
deriving Repr, DecidableEq

def Entry.render (e : Entry) : String :=
  e.name ++ ": " ++ e.ty.keyword ++ " = " ++ e.value.render

/-- The index sends a name to a position exactly if the entry at the position has this name. -/
def Indexes (index : Std.HashMap String Nat) (entries : Array Entry) : Prop :=
  ∀ name i, index[name]? = some i ↔ ∃ e : Entry, entries[i]? = some e ∧ e.name = name

namespace Indexes

variable {index : Std.HashMap String Nat} {entries : Array Entry}

theorem empty : Indexes ∅ #[] := by
  intro name i
  simp

theorem lt_size (h : Indexes index entries) {name : String} {i : Nat}
    (hi : index[name]? = some i) : i < entries.size := by
  obtain ⟨e, he, -⟩ := (h name i).1 hi
  exact (Array.getElem?_eq_some_iff.1 he).1

/-- Adding a variable whose name is new. -/
theorem push (h : Indexes index entries) {name : String} (hnew : index[name]? = none) (ty : Ty)
    (value : Value) :
    Indexes (index.insert name entries.size) (entries.push ⟨name, ty, value⟩) := by
  intro x i
  simp only [Std.HashMap.getElem?_insert, Array.getElem?_push, beq_iff_eq]
  by_cases hi : i = entries.size
  · subst hi
    simp only [↓reduceIte, Option.some.injEq, exists_eq_left']
    split
    · simp [*]
    · next hx =>
      refine ⟨fun hold => ?_, fun hx' => absurd hx' hx⟩
      exact absurd (h.lt_size hold) (Nat.lt_irrefl _)
  · rw [if_neg hi]
    split
    · next hx =>
      subst hx
      rw [← h, hnew]
      simp [Ne.symm hi]
    · exact h x i

/-- Storing a value; the names stay where they are. -/
theorem modify (h : Indexes index entries) (i : Nat) (value : Value) :
    Indexes index (entries.modify i fun e => { e with value := value }) := by
  intro x j
  rw [h, Array.getElem?_modify]
  split
  · cases entries[j]? <;> simp
  · exact Iff.rfl

end Indexes

/-- The declared variables; `index` gives the position of each name in `entries`. -/
@[ext] structure SymbolTable where
  index : Std.HashMap String Nat
  entries : Array Entry
  indexes : Indexes index entries

namespace SymbolTable

def empty : SymbolTable := ⟨∅, #[], .empty⟩

instance : Inhabited SymbolTable := ⟨empty⟩

def isDefined (t : SymbolTable) (name : String) : Bool :=
  t.index.contains name

theorem isDefined_eq_isSome (t : SymbolTable) (name : String) :
    t.isDefined name = t.index[name]?.isSome :=
  Std.HashMap.contains_eq_isSome_getElem?

theorem isDefined_eq_false_iff {t : SymbolTable} {name : String} :
    t.isDefined name = false ↔ t.index[name]? = none := by
  rw [isDefined_eq_isSome, Option.isSome_eq_false_iff, Option.isNone_iff_eq_none]

def get? (t : SymbolTable) (name : String) : Option Entry :=
  t.index[name]?.bind fun i => t.entries[i]?

/-- Adds a variable at the end; fails if the name is declared already. -/
def declare? (t : SymbolTable) (name : String) (ty : Ty) (value : Value) : Option SymbolTable :=
  if h : t.isDefined name then none
  else some ⟨t.index.insert name t.entries.size, t.entries.push ⟨name, ty, value⟩,
    t.indexes.push (isDefined_eq_false_iff.1 (Bool.eq_false_iff.2 h)) ty value⟩

/-- Replaces the value of a variable; fails if the name is not declared. -/
def assign? (t : SymbolTable) (name : String) (value : Value) : Option SymbolTable :=
  t.index[name]?.map fun i =>
    ⟨t.index, t.entries.modify i fun e => { e with value := value }, t.indexes.modify i value⟩

def size (t : SymbolTable) : Nat :=
  t.entries.size

def isEmpty (t : SymbolTable) : Bool :=
  t.entries.isEmpty

/-- The variables in the order of their declaration. -/
def toList (t : SymbolTable) : List Entry :=
  t.entries.toList

@[simp] theorem toList_empty : empty.toList = [] := rfl

theorem length_toList (t : SymbolTable) : t.toList.length = t.size := by
  rw [toList, size, Array.length_toList]

/-- A declared variable stands at the end, and the others stay as they are. -/
theorem toList_of_declare? {t t' : SymbolTable} {name : String} {ty : Ty} {value : Value}
    (h : t.declare? name ty value = some t') : t'.toList = t.toList ++ [⟨name, ty, value⟩] := by
  unfold declare? at h
  split at h
  · cases h
  · cases h
    exact Array.toList_push

def render (t : SymbolTable) : String :=
  Text.unlines (t.toList.map Entry.render)

end SymbolTable

end ThreeAddress
