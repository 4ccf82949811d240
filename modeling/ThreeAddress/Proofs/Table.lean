import ThreeAddress.Analysis

/-!
# The symbol table under analysis

A lookup by name finds the entry with that name (`get?_eq_some_iff`), and the effect of a statement
that passes the check is one assignment to `valueOf`, the values by name (`valueOf_apply_declare`,
`valueOf_apply_assign`). `Passes` lists what a statement that passes can be and do.
-/

namespace ThreeAddress

namespace SymbolTable

variable {t t' : SymbolTable} {name x : String} {ty : Ty} {value : Value}

/-! ### Lookups -/

theorem get?_eq_some_iff {e : Entry} :
    t.get? name = some e ↔ e ∈ t.toList ∧ e.name = name := by
  unfold get? toList
  rw [Array.mem_toList_iff, Array.mem_iff_getElem?]
  constructor
  · intro h
    obtain ⟨i, hi, he⟩ := Option.bind_eq_some_iff.1 h
    obtain ⟨e', he', hname⟩ := (t.indexes name i).1 hi
    obtain rfl : e = e' := Option.some.inj (he.symm.trans he')
    exact ⟨⟨i, he⟩, hname⟩
  · rintro ⟨⟨i, he⟩, hname⟩
    exact Option.bind_eq_some_iff.2 ⟨i, (t.indexes name i).2 ⟨e, he, hname⟩, he⟩

theorem isSome_get? (t : SymbolTable) (name : String) :
    (t.get? name).isSome = t.isDefined name := by
  rw [isDefined_eq_isSome, get?]
  cases hi : t.index[name]? with
  | none => rfl
  | some i =>
    obtain ⟨e, he, -⟩ := (t.indexes name i).1 hi
    simp [he]

theorem isDefined_iff_mem : t.isDefined name = true ↔ name ∈ t.toList.map Entry.name := by
  rw [← isSome_get?, Option.isSome_iff_exists, List.mem_map]
  exact exists_congr fun e => get?_eq_some_iff

/-! ### Declaring and assigning -/

theorem declare?_eq_some_iff :
    t.declare? name ty value = some t' ↔ t.isDefined name = false ∧
      t'.index = t.index.insert name t.entries.size ∧
      t'.entries = t.entries.push ⟨name, ty, value⟩ := by
  unfold declare?
  split
  · next h => simp [h]
  · next h => simp [h, SymbolTable.ext_iff, eq_comm]

theorem assign?_eq_some_iff :
    t.assign? name value = some t' ↔ ∃ i, t.index[name]? = some i ∧ t'.index = t.index ∧
      t'.entries = t.entries.modify i fun e => { e with value := value } := by
  rw [assign?, Option.map_eq_some_iff]
  refine exists_congr fun i => and_congr_right fun _ => ?_
  rw [SymbolTable.ext_iff, eq_comm, @eq_comm _ t'.entries]

theorem exists_declare? (hdef : t.isDefined name = false) (ty : Ty) (value : Value) :
    ∃ t', t.declare? name ty value = some t' :=
  ⟨_, dif_neg (Bool.eq_false_iff.1 hdef)⟩

theorem exists_assign? (hdef : t.isDefined name = true) (value : Value) :
    ∃ t', t.assign? name value = some t' := by
  obtain ⟨i, hi⟩ := Option.isSome_iff_exists.1 ((isDefined_eq_isSome t name).symm.trans hdef)
  exact ⟨_, congrArg (Option.map _) hi⟩

theorem get?_of_declare? (h : t.declare? name ty value = some t') :
    t'.get? x = if x = name then some ⟨name, ty, value⟩ else t.get? x := by
  obtain ⟨-, hindex, hentries⟩ := declare?_eq_some_iff.1 h
  rw [get?, hindex, hentries, Std.HashMap.getElem?_insert]
  by_cases hx : x = name
  · simp [hx]
  · rw [if_neg (by simpa using Ne.symm hx), if_neg hx, get?]
    cases hi : t.index[x]? with
    | none => rfl
    | some i =>
      have := t.indexes.lt_size hi
      simp [Array.getElem?_push, Nat.ne_of_lt this]

theorem get?_of_assign? (h : t.assign? name value = some t') :
    t'.get? x =
      if x = name then (t.get? x).map (fun e => { e with value := value }) else t.get? x := by
  obtain ⟨i, hi, hindex, hentries⟩ := assign?_eq_some_iff.1 h
  unfold get?
  rw [hindex, hentries]
  by_cases hx : x = name
  · subst hx
    simp [hi, Array.getElem?_modify]
  · rw [if_neg hx]
    cases hj : t.index[x]? with
    | none => rfl
    | some j =>
      -- two names at one position would be one name
      have hne : i ≠ j := by
        rintro rfl
        obtain ⟨e, he, rfl⟩ := (t.indexes x i).1 hj
        obtain ⟨e', he', rfl⟩ := (t.indexes name i).1 hi
        rw [he] at he'
        cases he'
        exact hx rfl
      simp [Array.getElem?_modify, hne]

/-! ### Values by name -/

def valueOf (t : SymbolTable) (name : String) : Option Value :=
  (t.get? name).map Entry.value

@[simp] theorem valueOf_empty (name : String) : empty.valueOf name = none := by
  simp [valueOf, get?, empty]

theorem isSome_valueOf (t : SymbolTable) (name : String) :
    (t.valueOf name).isSome = t.isDefined name := by
  rw [valueOf, Option.isSome_map, isSome_get?]

theorem valueOf_eq_some_iff :
    t.valueOf name = some value ↔ ∃ e ∈ t.toList, e.name = name ∧ e.value = value := by
  rw [valueOf, Option.map_eq_some_iff]
  constructor
  · rintro ⟨e, he, hvalue⟩
    obtain ⟨hmem, hname⟩ := get?_eq_some_iff.1 he
    exact ⟨e, hmem, hname, hvalue⟩
  · rintro ⟨e, hmem, hname, hvalue⟩
    exact ⟨e, get?_eq_some_iff.2 ⟨hmem, hname⟩, hvalue⟩

theorem valueOf_of_mem {e : Entry} (he : e ∈ t.toList) : t.valueOf e.name = some e.value :=
  valueOf_eq_some_iff.2 ⟨e, he, rfl, rfl⟩

theorem valueOf_apply_declare (hdef : t.isDefined name = false) :
    ((Effect.declare name ty value).apply t).valueOf x =
      if x = name then some value else t.valueOf x := by
  obtain ⟨t', h⟩ := exists_declare? hdef ty value
  rw [Effect.apply, h, Option.getD_some, valueOf, get?_of_declare? h]
  split <;> rfl

theorem valueOf_apply_assign (hdef : t.isDefined name = true) :
    ((Effect.assign name value).apply t).valueOf x =
      if x = name then some value else t.valueOf x := by
  obtain ⟨t', h⟩ := exists_assign? hdef value
  rw [Effect.apply, h, Option.getD_some, valueOf, get?_of_assign? h]
  split
  · next hx =>
    obtain ⟨e, he⟩ := Option.isSome_iff_exists.1 ((isSome_get? t name).trans hdef)
    simp [hx, he]
  · rfl

/-! ### Statements that pass -/

/-- What a statement that passes the check can be, and its effect then. -/
inductive Passes (t : SymbolTable) : Stmt → Effect → Prop
  | declaration {ty : Ty} {name : String} (hdef : t.isDefined name = false) :
      Passes t (.declaration ty name none) (.declare name ty .uninitialized)
  | initialized {ty : Ty} {name : String} {e : Expr} {v : Value} (hdef : t.isDefined name = false)
      (he : t.evaluate e = .ok v) : Passes t (.declaration ty name (some e)) (.declare name ty v)
  | assignment {name : String} {e : Expr} {v : Value} (hdef : t.isDefined name = true)
      (he : t.evaluate e = .ok v) : Passes t (.assignment name e) (.assign name v)
  | print {name : String} (hdef : t.isDefined name = true) : Passes t (.print name) .keep

theorem map_eq_ok_iff {ε α β : Type} {f : α → β} {r : Except ε α} {b : β} :
    r.map f = .ok b ↔ ∃ a, r = .ok a ∧ f a = b := by
  cases r <;> simp [Except.map]

theorem check_eq_ok_iff {s : Stmt} {effect : Effect} :
    t.check s = .ok effect ↔ t.Passes s effect := by
  constructor
  · intro h
    unfold check at h
    split at h
    · next ty name init =>
      split at h
      · cases h
      next hdef =>
      rw [Bool.not_eq_true] at hdef
      cases init with
      | none => cases h; exact .declaration hdef
      | some e =>
        obtain ⟨v, he, rfl⟩ := map_eq_ok_iff.1 h
        exact .initialized hdef he
    · next name e =>
      split at h
      · next hdef =>
        obtain ⟨v, he, rfl⟩ := map_eq_ok_iff.1 h
        exact .assignment hdef he
      · cases h
    · next name =>
      split at h
      · next hdef => cases h; exact .print hdef
      · cases h
  · rintro (hdef | ⟨hdef, he⟩ | ⟨hdef, he⟩ | hdef) <;> simp [check, hdef]
    · exact map_eq_ok_iff.2 ⟨_, he, rfl⟩
    · exact map_eq_ok_iff.2 ⟨_, he, rfl⟩

/-! ### Analysis -/

theorem fault_analyze_cons_eq_none_iff {s : Stmt} {rest : List Stmt} :
    (t.analyze (s :: rest)).fault = none ↔
      ∃ effect, t.Passes s effect ∧ ((effect.apply t).analyze rest).fault = none := by
  rw [analyze]
  cases h : t.check s with
  | error e => simp [← check_eq_ok_iff, h]
  | ok effect => simp [← check_eq_ok_iff, h]

theorem table_analyze_cons {s : Stmt} {effect : Effect} (h : t.Passes s effect)
    (rest : List Stmt) :
    (t.analyze (s :: rest)).table = ((effect.apply t).analyze rest).table := by
  rw [analyze, check_eq_ok_iff.2 h]

end SymbolTable

end ThreeAddress
