import ThreeAddress.Proofs.Table

/-!
# Sessions with a symbol table

A session works on one table with `Action`s: it declares and assigns variables, and it analyzes
statements, expressions and programs against the table. An action that fails does not end it.

`Rows` is the same table without an index: a list of entries, searched from the front. Every
operation on a table commutes with `toList` (`SymbolTable.toList_declare?`,
`SymbolTable.evaluate_toList`, `SymbolTable.toList_step`), hence so does a session
(`SymbolTable.toList_session`), and what holds of the rows holds of the table. The names and types
in the rows only grow at the end (`Rows.signatures_isPrefix_session`).
-/

namespace ThreeAddress

/-! ### Actions -/

inductive Action
  | declare (name : String) (ty : Ty) (value : Value)
  | assign (name : String) (value : Value)
  | statement (s : Stmt)
  | evaluate (e : Expr)
  | analyze (stmts : List Stmt)
deriving Repr

/-- What an action reports: whether the table took it, the fault found if any, or a value. -/
inductive Report
  | taken (ok : Bool)
  | checked (fault : Option SemanticError)
  | value (result : Except SemanticError Value)

/-- The reports of some actions and the state they lead to. -/
def session {σ : Type} (perform : σ → Action → Report × σ) (s : σ) :
    List Action → List Report × σ
  | [] => ([], s)
  | a :: rest =>
    let (report, s) := perform s a
    let (reports, last) := session perform s rest
    (report :: reports, last)

theorem session_append_snd {σ : Type} (perform : σ → Action → Report × σ) (s : σ)
    (actions more : List Action) :
    (session perform s (actions ++ more)).2 =
      (session perform (session perform s actions).2 more).2 := by
  induction actions generalizing s with
  | nil => rfl
  | cons a rest ih => exact ih _

def SymbolTable.perform (t : SymbolTable) : Action → Report × SymbolTable
  | .declare name ty value =>
    let after := t.declare? name ty value
    (.taken after.isSome, after.getD t)
  | .assign name value =>
    let after := t.assign? name value
    (.taken after.isSome, after.getD t)
  | .statement s =>
    match t.step s with
    | .error e => (.checked (some e), t)
    | .ok after => (.checked none, after)
  | .evaluate e => (.value (t.evaluate e), t)
  | .analyze stmts =>
    let analysis := t.analyze stmts
    (.checked analysis.fault, analysis.table)

/-! ### Rows -/

namespace Rows

def get? (rows : List Entry) (name : String) : Option Entry :=
  rows.find? fun e => e.name = name

def isDefined (rows : List Entry) (name : String) : Bool :=
  rows.any fun e => e.name = name

def declare? (rows : List Entry) (name : String) (ty : Ty) (value : Value) :
    Option (List Entry) :=
  if isDefined rows name then none else some (rows ++ [⟨name, ty, value⟩])

/-- The rows with another value in the one of this name. -/
def store (rows : List Entry) (name : String) (value : Value) : List Entry :=
  rows.map fun e => if e.name = name then { e with value := value } else e

def assign? (rows : List Entry) (name : String) (value : Value) : Option (List Entry) :=
  if isDefined rows name then some (store rows name value) else none

def render (rows : List Entry) : String :=
  String.join (rows.map fun e =>
    e.name ++ ": " ++ e.ty.keyword ++ " = " ++ e.value.render ++ "\n")

def evaluate (rows : List Entry) : Expr → Except SemanticError Value
  | .number text => .ok (.literal text)
  | .identifier name =>
    match get? rows name with
    | some e => .ok e.value
    | none => .error (.undeclared name)
  | .binary op left right => do
    let l ← evaluate rows left
    let r ← evaluate rows right
    Value.combine op left right l r

def step (rows : List Entry) : Stmt → Except SemanticError (List Entry)
  | .declaration ty name init =>
    if isDefined rows name then .error (.alreadyDeclared name)
    else
      (init.elim (.ok .uninitialized) (evaluate rows)).map fun value =>
        rows ++ [⟨name, ty, value⟩]
  | .assignment name e =>
    if isDefined rows name then (evaluate rows e).map (store rows name)
    else .error (.undeclared name)
  | .print name => if isDefined rows name then .ok rows else .error (.undeclared name)

/-- Stops at the first fault, with the rows as they are there. -/
def analyze (rows : List Entry) : List Stmt → Option SemanticError × List Entry
  | [] => (none, rows)
  | s :: rest =>
    match step rows s with
    | .error e => (some e, rows)
    | .ok after => analyze after rest

def perform (rows : List Entry) : Action → Report × List Entry
  | .declare name ty value =>
    let after := declare? rows name ty value
    (.taken after.isSome, after.getD rows)
  | .assign name value =>
    let after := assign? rows name value
    (.taken after.isSome, after.getD rows)
  | .statement s =>
    match step rows s with
    | .error e => (.checked (some e), rows)
    | .ok after => (.checked none, after)
  | .evaluate e => (.value (evaluate rows e), rows)
  | .analyze stmts =>
    let (fault, after) := analyze rows stmts
    (.checked fault, after)

end Rows

/-! ### A table and its rows -/

namespace SymbolTable

theorem get?_toList (t : SymbolTable) (name : String) :
    Rows.get? t.toList name = t.get? name := by
  unfold Rows.get?
  cases h : t.toList.find? fun e => e.name = name with
  | none =>
    symm
    rw [Option.eq_none_iff_forall_ne_some]
    intro e he
    obtain ⟨hmem, hname⟩ := get?_eq_some_iff.1 he
    simpa [hname] using List.find?_eq_none.1 h e hmem
  | some e =>
    symm
    exact get?_eq_some_iff.2 ⟨List.mem_of_find?_eq_some h, by simpa using List.find?_some h⟩

theorem isDefined_toList (t : SymbolTable) (name : String) :
    Rows.isDefined t.toList name = t.isDefined name := by
  rw [Bool.eq_iff_iff, isDefined_iff_mem]
  simp [Rows.isDefined]

theorem nodup_names (t : SymbolTable) : (t.toList.map Entry.name).Nodup := by
  refine List.pairwise_iff_getElem.2 fun i j hi hj hij heq => ?_
  rw [List.length_map, toList, Array.length_toList] at hi hj
  simp only [toList, List.getElem_map, Array.getElem_toList] at heq
  -- one name at two positions, of which the index gives one
  have hat : ∀ k (hk : k < t.entries.size), t.index[t.entries[k].name]? = some k := fun k hk =>
    (t.indexes _ k).2 ⟨t.entries[k], Array.getElem?_eq_getElem hk, rfl⟩
  have hindex : some i = some j := (hat i hi).symm.trans (heq ▸ hat j hj)
  exact Nat.ne_of_lt hij (Option.some.inj hindex)

theorem toList_declare? (t : SymbolTable) (name : String) (ty : Ty) (value : Value) :
    (t.declare? name ty value).map toList = Rows.declare? t.toList name ty value := by
  rw [Rows.declare?, isDefined_toList, SymbolTable.declare?]
  split <;> simp [toList]

theorem toList_assign? (t : SymbolTable) (name : String) (value : Value) :
    (t.assign? name value).map toList = Rows.assign? t.toList name value := by
  rw [Rows.assign?, isDefined_toList, isDefined_eq_isSome, SymbolTable.assign?]
  cases hi : t.index[name]? with
  | none => rfl
  | some i =>
    simp only [Option.map_some, Option.isSome_some, ↓reduceIte, Option.some.injEq]
    apply List.ext_getElem?
    intro j
    simp only [toList, Rows.store, List.getElem?_map, Array.getElem?_toList,
      Array.getElem?_modify]
    split
    · next hij =>
      subst hij
      obtain ⟨e, he, hname⟩ := (t.indexes name i).1 hi
      simp [he, hname]
    · next hij =>
      cases hj : t.entries[j]? with
      | none => rfl
      | some e =>
        -- the index gives one position for the name, and it is not this one
        have hne : e.name ≠ name := by
          intro hname
          have hindex := hi.symm.trans ((t.indexes name j).2 ⟨e, hj, hname⟩)
          exact hij (Option.some.inj hindex)
        simp [hne]

theorem evaluate_toList (t : SymbolTable) (e : Expr) :
    Rows.evaluate t.toList e = t.evaluate e := by
  induction e with
  | number text => rfl
  | identifier name =>
    cases h : t.get? name <;> simp [Rows.evaluate, SymbolTable.evaluate, get?_toList, h]
  | binary op left right ihl ihr => rw [Rows.evaluate, ihl, ihr, SymbolTable.evaluate]

/-- A declaration that passes is taken. -/
theorem toList_apply_declare {t : SymbolTable} {name : String} (hdef : t.isDefined name = false)
    (ty : Ty) (value : Value) :
    ((Effect.declare name ty value).apply t).toList = t.toList ++ [⟨name, ty, value⟩] := by
  obtain ⟨t', h⟩ := exists_declare? hdef ty value
  rw [Effect.apply, h, Option.getD_some, toList_of_declare? h]

/-- An assignment that passes is taken. -/
theorem toList_apply_assign {t : SymbolTable} {name : String} (hdef : t.isDefined name = true)
    (value : Value) :
    ((Effect.assign name value).apply t).toList = Rows.store t.toList name value := by
  obtain ⟨t', h⟩ := exists_assign? hdef value
  have hrows := toList_assign? t name value
  rw [h, Rows.assign?, isDefined_toList, if_pos hdef] at hrows
  rw [Effect.apply, h, Option.getD_some]
  exact Option.some.inj hrows

theorem toList_step (t : SymbolTable) (s : Stmt) :
    (t.step s).map toList = Rows.step t.toList s := by
  rw [SymbolTable.step]
  cases s with
  | declaration ty name init =>
    simp only [Rows.step, isDefined_toList, check]
    cases hdef : t.isDefined name with
    | true => rfl
    | false =>
      cases init with
      | none => exact congrArg Except.ok (toList_apply_declare hdef ty .uninitialized)
      | some e =>
        simp only [Bool.false_eq_true, ↓reduceIte, Option.elim_some, evaluate_toList]
        cases t.evaluate e with
        | error f => rfl
        | ok v => exact congrArg Except.ok (toList_apply_declare hdef ty v)
  | assignment name e =>
    rw [Rows.step, isDefined_toList, evaluate_toList, check]
    cases hdef : t.isDefined name with
    | false => rfl
    | true =>
      cases t.evaluate e with
      | error f => rfl
      | ok v => exact congrArg Except.ok (toList_apply_assign hdef v)
  | print name =>
    rw [Rows.step, isDefined_toList, check]
    cases t.isDefined name <;> rfl

theorem toList_analyze (t : SymbolTable) (stmts : List Stmt) :
    ((t.analyze stmts).fault, (t.analyze stmts).table.toList) = Rows.analyze t.toList stmts := by
  induction stmts generalizing t with
  | nil => rfl
  | cons s rest ih =>
    rw [Rows.analyze, ← toList_step, SymbolTable.analyze, SymbolTable.step]
    cases t.check s with
    | error e => rfl
    | ok effect => exact ih (effect.apply t)

/-! ### Sessions -/

/-- An action on the table is the same action on its rows. -/
theorem toList_perform (t : SymbolTable) (a : Action) :
    (t.perform a).map id toList = Rows.perform t.toList a := by
  cases a with
  | declare name ty value =>
    rw [Rows.perform, ← toList_declare?, SymbolTable.perform]
    cases t.declare? name ty value <;> rfl
  | assign name value =>
    rw [Rows.perform, ← toList_assign?, SymbolTable.perform]
    cases t.assign? name value <;> rfl
  | statement s =>
    rw [Rows.perform, ← toList_step, SymbolTable.perform]
    cases t.step s <;> rfl
  | evaluate e => rw [Rows.perform, evaluate_toList]; rfl
  | analyze stmts => rw [Rows.perform, ← toList_analyze]; rfl

theorem toList_session (t : SymbolTable) (actions : List Action) :
    (session SymbolTable.perform t actions).map id toList =
      session Rows.perform t.toList actions := by
  induction actions generalizing t with
  | nil => rfl
  | cons a rest ih =>
    have hrest := ih (t.perform a).2
    simp only [session, ← toList_perform, Prod.map_fst, Prod.map_snd, ← hrest]
    rfl

end SymbolTable

/-! ### Names and types -/

namespace Rows

variable {rows after : List Entry}

/-- The names with their types, in the order of declaration. -/
def signatures (rows : List Entry) : List (String × Ty) :=
  rows.map fun e => (e.name, e.ty)

@[simp] theorem signatures_store (rows : List Entry) (name : String) (value : Value) :
    signatures (store rows name value) = signatures rows := by
  rw [signatures, store, List.map_map]
  refine List.map_congr_left fun e _ => ?_
  rw [Function.comp_apply]
  split <;> rfl

theorem signatures_isPrefix_append (rows : List Entry) (e : Entry) :
    signatures rows <+: signatures (rows ++ [e]) := by
  rw [signatures, signatures, List.map_append]
  exact List.prefix_append _ _

theorem signatures_isPrefix_step {s : Stmt} (h : step rows s = .ok after) :
    signatures rows <+: signatures after := by
  cases s with
  | declaration ty name init =>
    rw [step] at h
    split at h
    · cases h
    · obtain ⟨value, -, rfl⟩ := SymbolTable.map_eq_ok_iff.1 h
      exact signatures_isPrefix_append _ _
  | assignment name e =>
    rw [step] at h
    split at h
    · obtain ⟨value, -, rfl⟩ := SymbolTable.map_eq_ok_iff.1 h
      simp
    · cases h
  | print name =>
    rw [step] at h
    split at h
    · cases h
      exact List.prefix_refl _
    · cases h

theorem signatures_isPrefix_analyze (rows : List Entry) (stmts : List Stmt) :
    signatures rows <+: signatures (analyze rows stmts).2 := by
  induction stmts generalizing rows with
  | nil => exact List.prefix_refl _
  | cons s rest ih =>
    rw [analyze]
    cases h : step rows s with
    | error e => exact List.prefix_refl _
    | ok after => exact (signatures_isPrefix_step h).trans (ih after)

theorem signatures_isPrefix_perform (rows : List Entry) (a : Action) :
    signatures rows <+: signatures (perform rows a).2 := by
  cases a with
  | declare name ty value =>
    simp only [perform, declare?]
    split
    · exact List.prefix_refl _
    · exact signatures_isPrefix_append _ _
  | assign name value =>
    simp only [perform, assign?]
    split
    · simp
    · exact List.prefix_refl _
  | statement s =>
    rw [perform]
    cases h : step rows s with
    | error e => exact List.prefix_refl _
    | ok after => exact signatures_isPrefix_step h
  | evaluate e => exact List.prefix_refl _
  | analyze stmts => exact signatures_isPrefix_analyze rows stmts

theorem signatures_isPrefix_session (rows : List Entry) (actions : List Action) :
    signatures rows <+: signatures (session perform rows actions).2 := by
  induction actions generalizing rows with
  | nil => exact List.prefix_refl _
  | cons a rest ih => exact (signatures_isPrefix_perform rows a).trans (ih _)

end Rows

/-! ### What a session shows -/

/-- Every way to look at the table shows what it shows of the rows. -/
structure SymbolTable.ReadsAs (t : SymbolTable) (rows : List Entry) : Prop where
  toList : t.toList = rows
  get? : ∀ name, t.get? name = Rows.get? rows name
  isDefined : ∀ name, t.isDefined name = Rows.isDefined rows name
  size : t.size = rows.length
  isEmpty : t.isEmpty = rows.isEmpty
  render : t.render = Rows.render rows

namespace SymbolTable

theorem readsAs (t : SymbolTable) : t.ReadsAs t.toList where
  toList := rfl
  get? name := (t.get?_toList name).symm
  isDefined name := (t.isDefined_toList name).symm
  size := t.length_toList.symm
  isEmpty := by simp [SymbolTable.isEmpty, SymbolTable.toList]
  render := by simp [SymbolTable.render, Text.unlines, Rows.render, Entry.render, Function.comp_def]

theorem ty_of_signatures {t later : SymbolTable}
    (h : Rows.signatures t.toList <+: Rows.signatures later.toList) {name : String} {e : Entry}
    (he : t.get? name = some e) : ∃ e', later.get? name = some e' ∧ e'.ty = e.ty := by
  obtain ⟨hmem, hname⟩ := get?_eq_some_iff.1 he
  have hsig : (e.name, e.ty) ∈ Rows.signatures later.toList :=
    h.subset (List.mem_map_of_mem hmem)
  obtain ⟨e', hmem', heq⟩ := List.mem_map.1 hsig
  rw [Prod.mk.injEq] at heq
  exact ⟨e', get?_eq_some_iff.2 ⟨hmem', heq.1.trans hname⟩, heq.2⟩

end SymbolTable

/-- A session with a table is a session with a plain list of rows: after any actions the index and
the entries agree, no name stands twice, and the reports and all that the table shows are those of
the rows. Further actions extend the list of names and types at its end and change no type. -/
theorem session_reads_as_rows (actions more : List Action) :
    let indexed := session SymbolTable.perform .empty actions
    let plain := session Rows.perform [] actions
    let t := indexed.2
    let later := (session SymbolTable.perform .empty (actions ++ more)).2
    (∀ (name : String) (i : Nat),
        t.index[name]? = some i ↔ ∃ e : Entry, t.entries[i]? = some e ∧ e.name = name) ∧
      (∀ (name : String) (i : Nat), t.index[name]? = some i → i < t.entries.size) ∧
      (t.toList.map Entry.name).Nodup ∧ indexed.1 = plain.1 ∧ t.ReadsAs plain.2 ∧
      Rows.signatures t.toList <+: Rows.signatures later.toList ∧
      ∀ name e, t.get? name = some e → ∃ e', later.get? name = some e' ∧ e'.ty = e.ty := by
  intro indexed plain t later
  have hplain : indexed.map id SymbolTable.toList = plain :=
    SymbolTable.empty.toList_session actions
  have hgrow : Rows.signatures t.toList <+: Rows.signatures later.toList := by
    have hmore : later.toList = (session Rows.perform t.toList more).2 := by
      rw [← t.toList_session more]
      exact congrArg SymbolTable.toList (session_append_snd _ _ actions more)
    rw [hmore]
    exact Rows.signatures_isPrefix_session t.toList more
  rw [← hplain]
  exact ⟨t.indexes, fun name i hi => t.indexes.lt_size hi, t.nodup_names, rfl, t.readsAs, hgrow,
    fun name e he => SymbolTable.ty_of_signatures hgrow he⟩

/-- A name declared twice keeps its first type, through failing actions of every kind. -/
theorem session_reads_as_rows_redeclared :
    let ran := session SymbolTable.perform .empty
      [.declare "y" .float .uninitialized, .declare "y" .int (.literal "1"),
        .statement (.assignment "y" (.binary .add (.number "2") (.identifier "y"))),
        .analyze [.assignment "y" (.number "3"), .print "z", .assignment "y" (.number "4")],
        .assign "z" (.literal "5")]
    ran.1 = [.taken true, .taken false, .checked (some (.uninitializedOperand "y" "+")),
        .checked (some (.undeclared "z")), .taken false] ∧
      ran.2.get? "y" = some ⟨"y", .float, .literal "3"⟩ ∧ ran.2.render = "y: float = 3\n" := by
  obtain ⟨-, -, -, hreports, hreads, -⟩ := session_reads_as_rows
    [.declare "y" .float .uninitialized, .declare "y" .int (.literal "1"),
      .statement (.assignment "y" (.binary .add (.number "2") (.identifier "y"))),
      .analyze [.assignment "y" (.number "3"), .print "z", .assignment "y" (.number "4")],
      .assign "z" (.literal "5")] []
  exact ⟨hreports, hreads.get? "y", hreads.render⟩

end ThreeAddress
