import ThreeAddress.Proofs.Conservation

/-!
# Temporaries

Lowering gives every operator of the source a temporary of its own and numbers them in the order in
which the code defines them. The operand that an expression is lowered to is the only way to its
temporary, and the instruction that asks for it reads it once. `Threads` says this of any part of
the code: it is kept by one more instruction (`Threads.read`, `Threads.define`) and by code put
together (`Threads.append`), hence holds of the code of expressions, statements and programs.
-/

namespace ThreeAddress

/-! ### What instructions read and write -/

/-- The operands that an instruction reads. -/
def Instr.sources : Instr → List Operand
  | declare _ _ => []
  | copy _ src => [src]
  | binary _ _ left right => [left, right]
  | print name => [.name name]

/-- The operand that an instruction writes or declares. -/
def Instr.target? : Instr → Option Operand
  | declare name _ => some (.name name)
  | copy dst _ | binary dst _ _ _ => some dst
  | print _ => none

/-- Where an instruction that computes puts its result. -/
def Instr.result? : Instr → Option Operand
  | binary dst _ _ _ => some dst
  | declare _ _ | copy _ _ | print _ => none

/-- The numbers of the temporaries that an instruction reads. -/
def Instr.reads (i : Instr) : List Nat :=
  i.sources.filterMap Operand.temp?

theorem Operand.temp?_eq_some_iff {o : Operand} {k : Nat} : o.temp? = some k ↔ o = .temp k := by
  cases o <;> simp [temp?]

theorem Instr.mem_reads_iff {i : Instr} {k : Nat} : k ∈ i.reads ↔ .temp k ∈ i.sources := by
  simp [reads, Operand.temp?_eq_some_iff]

theorem Instr.exists_of_result? {i : Instr} {dst : Operand} (h : i.result? = some dst) :
    ∃ op left right, i = .binary dst op left right := by
  cases i with
  | binary => cases h; exact ⟨_, _, _, rfl⟩
  | declare | copy | print => cases h

theorem Instr.reads_binary (dst left right : Operand) (op : BinOp) :
    (binary dst op left right).reads = left.temp?.toList ++ right.temp?.toList := by
  cases left <;> cases right <;> rfl

theorem Instr.reads_copy (dst src : Operand) : (copy dst src).reads = src.temp?.toList := by
  cases src <;> rfl

/-! ### Threads of temporaries -/

/-- The code takes `m` temporaries from number `n` on. It defines them in their order and writes no
others. What it reads is in `given` or was defined before, and of `given` and the temporaries that
it takes it reads each once, except those in `unread`, which it does not read. -/
structure Threads (given : List Nat) (n m : Nat) (unread : List Nat) (code : List Instr) :
    Prop where
  results : code.filterMap Instr.result? = (List.range' n m).map .temp
  targets : ∀ i ∈ code, ∀ k, i.target? = some (.temp k) → i.result? = some (.temp k)
  defined : ∀ before i after, code = before ++ i :: after →
    ∀ k ∈ i.reads, k ∈ given ∨ .temp k ∈ before.filterMap Instr.result?
  reads : (code.flatMap Instr.reads ++ unread).Perm (given ++ List.range' n m)

namespace Threads

variable {given unread unread' : List Nat} {n m m' : Nat} {code code' : List Instr}

theorem nil (given : List Nat) (n : Nat) : Threads given n 0 given [] where
  results := rfl
  targets := by simp
  defined := by simp
  reads := by simp

theorem defined_singleton {i : Instr} (before : List Instr) (j : Instr) (after : List Instr)
    (heq : [i] = before ++ j :: after) (k : Nat) (hk : k ∈ j.reads) :
    k ∈ i.reads ∨ .temp k ∈ before.filterMap Instr.result? := by
  cases before with
  | nil =>
    obtain ⟨rfl, -⟩ := List.cons.inj heq
    exact .inl hk
  | cons => simp at heq

/-- An instruction that computes nothing reads what it is given. -/
theorem read (n : Nat) {i : Instr} (hresult : i.result? = none)
    (htarget : ∀ k, i.target? ≠ some (.temp k)) : Threads i.reads n 0 [] [i] where
  results := by simp [hresult]
  targets := by simp [htarget]
  defined := defined_singleton
  reads := by simp

/-- An instruction that computes reads what it is given and defines the next temporary. -/
theorem define (n : Nat) (op : BinOp) (left right : Operand) :
    Threads (Instr.binary (.temp n) op left right).reads n 1 [n]
      [.binary (.temp n) op left right] where
  results := rfl
  targets := by simp [Instr.target?, Instr.result?]
  defined := defined_singleton
  reads := by simp

theorem unread_subset (h : Threads given n m unread code) {k : Nat} (hk : k ∈ unread) :
    k ∈ given ∨ .temp k ∈ code.filterMap Instr.result? := by
  rw [h.results]
  simpa using h.reads.subset (List.mem_append_right _ hk)

/-- Code behind code may read what that leaves unread. -/
theorem append (h : Threads given n m unread code) (h' : Threads unread (n + m) m' unread' code') :
    Threads given n (m + m') unread' (code ++ code') where
  results := by
    rw [List.filterMap_append, h.results, h'.results, ← List.map_append, List.range'_append_1]
  targets i hi := by
    rcases List.mem_append.1 hi with hi | hi
    · exact h.targets i hi
    · exact h'.targets i hi
  defined := by
    intro before i after heq k hk
    rcases List.append_eq_append_iff.1 heq with ⟨before', rfl, hcode'⟩ | ⟨rest, rfl, hrest⟩
    · rw [List.filterMap_append]
      rcases h'.defined before' i after hcode' k hk with hk | hk
      · exact (h.unread_subset hk).imp_right (List.mem_append_left _)
      · exact .inr (List.mem_append_right _ hk)
    · cases rest with
      | nil =>
        have hgiven := h'.defined [] i after hrest.symm k hk
        simpa using h.unread_subset (by simpa using hgiven)
      | cons j rest =>
        obtain ⟨rfl, -⟩ := List.cons.inj hrest
        exact h.defined before i rest rfl k hk
  reads := by
    have hreads := h.reads.append_right (List.range' (n + m) m')
    rw [List.append_assoc] at hreads
    rw [List.flatMap_append, List.append_assoc, ← List.range'_append_1, ← List.append_assoc given]
    exact (h'.reads.append_left _).trans hreads

/-- What else may be read stays unread. -/
theorem frame (h : Threads given n m unread code) (more : List Nat) :
    Threads (more ++ given) n m (more ++ unread) code where
  results := h.results
  targets := h.targets
  defined before i after heq k hk :=
    (h.defined before i after heq k hk).imp_left (List.mem_append_right _)
  reads := by
    rw [List.append_assoc]
    exact (List.perm_append_comm_assoc _ _ _).trans (h.reads.append_left more)

end Threads

/-! ### The code of expressions and statements -/

theorem Expr.threads_codeFrom (e : Expr) (n : Nat) :
    Threads [] n e.operators (e.place n).temp?.toList (e.codeFrom n) := by
  induction e generalizing n with
  | number | identifier => exact .nil [] n
  | binary op left right ihl ihr =>
    -- while the right operand is computed, the temporary of the left one waits
    have hright := (ihr (n + left.operators)).frame (left.place n).temp?.toList
    have hdefine := Threads.define (n + left.operators + right.operators) op (left.place n)
      (right.place (n + left.operators))
    rw [List.append_nil] at hright
    rw [Instr.reads_binary] at hdefine
    rw [Expr.operators, Expr.codeFrom]
    exact ((ihl n).append hright).append (by rwa [← Nat.add_assoc])

theorem Stmt.threads_codeFrom (s : Stmt) (n : Nat) :
    Threads [] n s.operators [] (s.codeFrom n) := by
  have hstore : ∀ (name : String) (e : Expr),
      Threads [] n e.operators [] (e.codeFrom n ++ [.copy (.name name) (e.place n)]) := by
    intro name e
    have hcopy := Threads.read (i := .copy (.name name) (e.place n)) (n + e.operators) rfl
      (by simp [Instr.target?])
    rw [Instr.reads_copy] at hcopy
    exact (e.threads_codeFrom n).append hcopy
  cases s with
  | declaration ty name init =>
    cases init with
    | none => exact Threads.read (i := .declare name ty) n rfl (by simp [Instr.target?])
    | some value => exact hstore name value
  | assignment name value => exact hstore name value
  | print name => exact Threads.read (i := .print name) n rfl (by simp [Instr.target?])

theorem threads_stmtsCodeFrom (stmts : List Stmt) (n : Nat) :
    Threads [] n (stmtsOperators stmts) [] (stmtsCodeFrom n stmts) := by
  induction stmts generalizing n with
  | nil => exact .nil [] n
  | cons s stmts ih => exact (s.threads_codeFrom n).append (ih (n + s.operators))

/-! ### A builder -/

def exprsOperators : List Expr → Nat
  | [] => 0
  | e :: es => e.operators + exprsOperators es

namespace Builder

/-- Adds the code of expressions one after the other, and gives the operands that hold their
values. -/
def lowerAll (b : Builder) : List Expr → List Operand × Builder
  | [] => ([], b)
  | e :: es =>
    let (operand, b) := b.lower e
    let (operands, b) := b.lowerAll es
    (operand :: operands, b)

/-- The code that the builder holds takes all temporaries up to the next one. -/
def Threaded (b : Builder) (unread : List Nat) : Prop :=
  Threads [] 0 b.nextTemp unread b.code.toList

theorem threaded_empty : empty.Threaded [] := .nil [] 0

variable {b : Builder} {unread : List Nat}

theorem Threaded.extend {m : Nat} {more : List Nat} {code : List Instr} (h : b.Threaded unread)
    (hcode : Threads [] b.nextTemp m more code) : (b.extend m code).Threaded (unread ++ more) := by
  have hframe := hcode.frame unread
  rw [List.append_nil] at hframe
  unfold Threaded at *
  rw [Builder.extend, Array.toList_append, List.toList_toArray]
  exact h.append (by rwa [Nat.zero_add])

theorem Threaded.lower (h : b.Threaded unread) (e : Expr) :
    (b.lower e).2.Threaded (unread ++ (b.lower e).1.temp?.toList) := by
  rw [lower_eq]
  exact h.extend (e.threads_codeFrom _)

theorem Threaded.lowerAll (h : b.Threaded unread) (es : List Expr) :
    (b.lowerAll es).2.Threaded (unread ++ (b.lowerAll es).1.filterMap Operand.temp?) := by
  induction es generalizing b unread with
  | nil => simpa [Builder.lowerAll] using h
  | cons e es ih =>
    have hrest := ih (h.lower e)
    have hunread : ((b.lowerAll (e :: es)).1).filterMap Operand.temp? =
        (b.lower e).1.temp?.toList ++ ((b.lower e).2.lowerAll es).1.filterMap Operand.temp? := by
      simp only [Builder.lowerAll, List.filterMap_cons]
      cases (b.lower e).1 <;> rfl
    rw [hunread, ← List.append_assoc]
    exact hrest

theorem Threaded.program (h : b.Threaded unread) (p : Program) :
    (b.program p).Threaded unread := by
  rw [program_eq]
  simpa using h.extend (threads_stmtsCodeFrom p.stmts b.nextTemp)

theorem nextTemp_lowerAll (b : Builder) (es : List Expr) :
    (b.lowerAll es).2.nextTemp = b.nextTemp + exprsOperators es := by
  induction es generalizing b with
  | nil => rfl
  | cons e es ih =>
    show ((b.lower e).2.lowerAll es).2.nextTemp = _
    rw [ih, lower_eq, nextTemp_extend, exprsOperators, Nat.add_assoc]

end Builder

/-! ### Uses -/

theorem count_sources_eq (code : List Instr) (k : Nat) :
    (code.flatMap Instr.sources).count (.temp k) = (code.flatMap Instr.reads).count k := by
  have hreads : code.flatMap Instr.reads = (code.flatMap Instr.sources).filterMap Operand.temp? := by
    rw [List.filterMap_flatMap]
    rfl
  rw [hreads, List.count_filterMap, List.count]
  refine List.countP_congr fun o _ => ?_
  simp [Operand.temp?_eq_some_iff]

theorem Threads.count_sources {m : Nat} {unread : List Nat} {code : List Instr}
    (h : Threads [] 0 m unread code) (k : Nat) :
    (code.flatMap Instr.sources).count (.temp k) = if k < m ∧ k ∉ unread then 1 else 0 := by
  have hcount := h.reads.count_eq k
  rw [List.count_append, List.nil_append, List.count_range_1', Nat.zero_add] at hcount
  rw [count_sources_eq]
  by_cases hunread : k ∈ unread
  · have hpos := List.count_pos_iff.2 hunread
    rw [if_neg fun h => h.2 hunread]
    split at hcount <;> omega
  · rw [List.count_eq_zero_of_not_mem hunread] at hcount
    simpa [hunread] using hcount

/-- Code that one builder makes of some expressions and a program is in static single assignment
form. Its binary instructions define the temporaries from the first to the last, one for each
operator, and no other instruction writes one. A temporary is read behind its definition and just
once, except that what an expression was lowered to is not read at all. -/
theorem temporaries_single_assignment (es : List Expr) (p : Program) :
    let lowered := Builder.empty.lowerAll es
    let code := (lowered.2.program p).code.toList
    let m := exprsOperators es + stmtsOperators p.stmts
    code.filterMap Instr.result? = (List.range m).map .temp ∧
      (∀ i ∈ code, ∀ k, i.target? = some (.temp k) →
        ∃ op left right, i = .binary (.temp k) op left right) ∧
      (∀ before i after k, code = before ++ i :: after → .temp k ∈ i.sources →
        ∃ op left right, .binary (.temp k) op left right ∈ before) ∧
      ∀ k, (code.flatMap Instr.sources).count (.temp k) =
        if k < m ∧ .temp k ∉ lowered.1 then 1 else 0 := by
  intro lowered code m
  have hthreads : Threads [] 0 m (lowered.1.filterMap Operand.temp?) code := by
    have h := (Builder.threaded_empty.lowerAll es).program p
    have hnext : (lowered.2.program p).nextTemp = m := by
      rw [Builder.program_eq, Builder.nextTemp_extend, Builder.nextTemp_lowerAll]
      exact congrArg (· + _) (Nat.zero_add _)
    rwa [Builder.Threaded, hnext] at h
  refine ⟨?_, fun i hi k hk => ?_, fun before i after k heq hk => ?_, fun k => ?_⟩
  · rw [hthreads.results, List.range_eq_range']
  · exact Instr.exists_of_result? (hthreads.targets i hi k hk)
  · rcases hthreads.defined before i after heq k (Instr.mem_reads_iff.2 hk) with hk | hk
    · cases hk
    · obtain ⟨d, hd, hresult⟩ := List.mem_filterMap.1 hk
      obtain ⟨op, left, right, rfl⟩ := Instr.exists_of_result? hresult
      exact ⟨op, left, right, hd⟩
  · rw [hthreads.count_sources]
    simp [Operand.temp?_eq_some_iff]

/-- One expression is lowered and not asked for; in the sum behind it the first product waits for
the second. -/
theorem temporaries_single_assignment_products :
    let lowered := Builder.empty.lowerAll [.binary .sub (.number "1") (.identifier "a")]
    let code := (lowered.2.program ⟨[.assignment "x" (.binary .add
      (.binary .mul (.identifier "a") (.identifier "b"))
      (.binary .mul (.identifier "c") (.identifier "d"))), .print "x"]⟩).code.toList
    lowered.1 = [.temp 0] ∧
      code.map Instr.render =
        ["t0 = 1 - a", "t1 = a * b", "t2 = c * d", "t3 = t1 + t2", "x = t3", "PRINT x"] ∧
      code.filterMap Instr.result? = [.temp 0, .temp 1, .temp 2, .temp 3] ∧
      (∃ op left right, Instr.binary (.temp 3) .add (.temp 1) (.temp 2) =
        .binary (.temp 3) op left right) ∧
      (∃ op left right, Instr.binary (.temp 1) op left right ∈ code.take 3) ∧
      (code.flatMap Instr.sources).count (.temp 0) = 0 ∧
      (code.flatMap Instr.sources).count (.temp 1) = 1 := by
  intro lowered code
  obtain ⟨hresults, htargets, hdefined, huses⟩ := temporaries_single_assignment
    [.binary .sub (.number "1") (.identifier "a")]
    ⟨[.assignment "x" (.binary .add (.binary .mul (.identifier "a") (.identifier "b"))
      (.binary .mul (.identifier "c") (.identifier "d"))), .print "x"]⟩
  have hcode : code = code.take 3 ++ .binary (.temp 3) .add (.temp 1) (.temp 2) :: code.drop 4 := by
    decide
  exact ⟨by decide, by decide, hresults, htargets _ (by decide) 3 rfl,
    hdefined (code.take 3) _ (code.drop 4) 1 hcode (by decide), huses 0, huses 1⟩

end ThreeAddress
