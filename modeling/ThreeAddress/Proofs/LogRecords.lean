import ThreeAddress.Proofs.Conservation
import ThreeAddress.Proofs.RecordedValues

/-!
# The log and the result

The log of a run tells of every stage up to the one that fails (`records_run`): of the segments of
the lines, of the statements, of every change to the symbol table, and of the code. A record of a
change can be read back from its text (`Effect.ofText?_message`), and replaying these records gives
the table (`Changelog`). Every statement that passes adds its own (`Passes.changelog`), so a whole
analysis leaves the changelog of the statements in front of the one that fails.
-/

namespace ThreeAddress

/-! ### Records -/

/-- A record of a log: its level and its text. -/
structure Record where
  level : Level
  text : String
deriving Repr, DecidableEq

def Event.record (e : Event) : Record :=
  ⟨e.level, e.message⟩

namespace Record

def debug (text : String) : Record := ⟨.debug, text⟩

def trace (text : String) : Record := ⟨.trace, text⟩

/-- The record of a segment of line `number`. Only a blank that is skipped leaves none. -/
def ofSegment? (number : Nat) : Segment → Option Record
  | .lexeme kind text =>
    let token : Token := ⟨kind, String.ofList text, number⟩
    some (trace ("line " ++ Nat.repr number ++ ": " ++ token.render))
  | .skipped c =>
    if Text.isBlank c then none
    else some (trace ("line " ++ Nat.repr number ++ ": skipping " ++ Text.quotedChar c))

theorem ofSegment?_eq (number : Nat) (segment : Segment) :
    ofSegment? number segment = (Event.ofSegment? number segment).map Event.record := by
  cases segment with
  | lexeme kind text => rfl
  | skipped c =>
    simp only [ofSegment?, Event.ofSegment?]
    split <;> rfl

end Record

/-! ### Reading a change back -/

theorem lineWords_append_blank (s s' : String) :
    lineWords (s ++ " " ++ s') = lineWords s ++ lineWords s' := by
  have hchars : (s ++ " " ++ s').toList = s.toList ++ ' ' :: s'.toList := by simp
  rw [lineWords, hchars, List.splitOn_append_cons_self, List.map_append, lineWords, lineWords]

theorem lineWords_of_not_mem {s : String} (h : ' ' ∉ s.toList) : lineWords s = [s] :=
  lineWords_eq (by simp) (by simpa using h) (by simp)

theorem intercalate_lineWords (s : String) : " ".intercalate (lineWords s) = s := by
  rw [← String.toList_inj, String.toList_intercalate, lineWords, List.map_map]
  have hid : String.toList ∘ String.ofList = id := funext fun _ => String.toList_ofList
  rw [hid, List.map_id]
  exact List.intercalate_splitOn ' '

/-- The change of a variable that a record tells of. -/
def Effect.ofText? (text : String) : Option Effect :=
  match lineWords text with
  | "declare" :: label :: ty :: "=" :: value =>
    let name := String.ofList (label.toList.takeWhile (· != ':'))
    (Ty.ofKeyword? ty).map fun ty => .declare name ty (.ofText (" ".intercalate value))
  | "assign" :: name :: "=" :: value => some (.assign name (.ofText (" ".intercalate value)))
  | _ => none

/-- The change of a variable with a name to a regular value. -/
def Effect.IsRegular : Effect → Prop
  | declare name _ value | assign name value => IsName name ∧ value.IsRegular
  | keep => True

theorem lineWords_declared {name : String} (hname : ' ' ∉ name.toList) (ty : Ty) (value : Value) :
    lineWords (Event.declared name ty value).message =
      "declare" :: (name ++ ":") :: ty.keyword :: "=" :: lineWords value.render := by
  have htext : (Event.declared name ty value).message =
      "declare" ++ " " ++ (name ++ ":") ++ " " ++ ty.keyword ++ " " ++ "=" ++ " " ++
        value.render := by
    show "declare " ++ name ++ ": " ++ ty.keyword ++ " = " ++ value.render = _
    simp [String.append_assoc]
  have hlabel : ' ' ∉ (name ++ ":").toList := by simpa using hname
  rw [htext]
  simp only [lineWords_append_blank, lineWords_of_not_mem hlabel,
    lineWords_of_not_mem ty.blank_not_mem_keyword]
  rfl

theorem lineWords_assigned {name : String} (hname : ' ' ∉ name.toList) (value : Value) :
    lineWords (Event.assigned name value).message =
      "assign" :: name :: "=" :: lineWords value.render := by
  have htext : (Event.assigned name value).message =
      "assign" ++ " " ++ name ++ " " ++ "=" ++ " " ++ value.render := by
    show "assign " ++ name ++ " = " ++ value.render = _
    simp [String.append_assoc]
  rw [htext]
  simp only [lineWords_append_blank, lineWords_of_not_mem hname]
  rfl

/-- Nothing of a change is lost in its record. -/
theorem Effect.ofText?_message {effect : Effect} (h : effect.IsRegular) {event : Event}
    (hevent : Event.ofEffect? effect = some event) : ofText? event.message = some effect := by
  have hblank : ∀ {name}, IsName name → ' ' ∉ name.toList := fun hname =>
    Token.Kind.Matches.not_mem hname (by decide)
  cases effect with
  | declare name ty value =>
    obtain ⟨hname, hvalue⟩ := h
    cases hevent
    -- the colon that ends the label is its first one, since a name has none
    have hcolon : ∀ c ∈ name.toList, (c != ':') = true := by
      intro c hc
      have hne : ':' ∉ name.toList := Token.Kind.Matches.not_mem hname (by decide)
      exact bne_iff_ne.2 fun heq => hne (heq ▸ hc)
    have hlabel : (name.toList ++ [':']).takeWhile (· != ':') = name.toList := by
      rw [List.takeWhile_append_of_pos hcolon]
      simp
    rw [ofText?, lineWords_declared (hblank hname)]
    simp [hlabel, intercalate_lineWords, Value.ofText_render hvalue]
  | assign name value =>
    obtain ⟨hname, hvalue⟩ := h
    cases hevent
    rw [ofText?, lineWords_assigned (hblank hname)]
    simp [intercalate_lineWords, Value.ofText_render hvalue]
  | keep => cases hevent

example : Effect.ofText? "declare a: int = 1 + 2" =
    some (.declare "a" .int (.composed "1 + 2")) := by
  decide

/-! ### Replaying records -/

/-- The table after the effect, if it does not refuse it. -/
def Effect.perform? (t : SymbolTable) : Effect → Option SymbolTable
  | declare name ty value => t.declare? name ty value
  | assign name value => t.assign? name value
  | keep => some t

/-- Makes the changes that the records tell of, one after the other. It fails at a record that tells
of none, and at a change that the table refuses. -/
def SymbolTable.replay? (t : SymbolTable) (records : List Record) : Option SymbolTable :=
  records.foldlM (fun t record => (Effect.ofText? record.text).bind (Effect.perform? t)) t

/-- How the record of a statement that passes begins. Only a print leaves none. -/
def Stmt.announcement? : Stmt → Option String
  | declaration ty name _ => some ("declare " ++ name ++ ": " ++ ty.keyword ++ " = ")
  | assignment name _ => some ("assign " ++ name ++ " = ")
  | print _ => none

/-- The records of the statements that lead from `t` to `t'`: one for every declaration and every
assignment, in their order, each with a value, and replayed they give `t'`. -/
structure Changelog (t : SymbolTable) (stmts : List Stmt) (t' : SymbolTable)
    (records : List Record) : Prop where
  each : List.Forall₂ (fun start record => ∃ v : Value, record = .debug (start ++ v.render))
    (stmts.filterMap Stmt.announcement?) records
  replay : t.replay? records = some t'

theorem Changelog.append {t t' t'' : SymbolTable} {xs ys : List Stmt} {rs rs' : List Record}
    (h : Changelog t xs t' rs) (h' : Changelog t' ys t'' rs') :
    Changelog t (xs ++ ys) t'' (rs ++ rs') where
  each := by
    rw [List.filterMap_append]
    exact List.rel_append h.each h'.each
  replay := by
    have hfirst := h.replay
    rw [SymbolTable.replay?] at hfirst ⊢
    rw [List.foldlM_append, hfirst]
    exact h'.replay

namespace SymbolTable

variable {t : SymbolTable} {s : Stmt} {effect : Effect}

theorem Passes.isRegular_effect (h : t.Passes s effect) (hreg : ∀ e ∈ t.toList, e.IsRegular)
    (hs : s.Texts IsNumeral IsName) : effect.IsRegular := by
  cases h with
  | declaration => exact ⟨hs.1, trivial⟩
  | @initialized _ _ e _ _ he => exact ⟨hs.1, isRegular_of_evaluate hreg (hs.2 e rfl) he⟩
  | assignment _ he => exact ⟨hs.1, isRegular_of_evaluate hreg hs.2 he⟩
  | print => trivial

/-- The table never refuses the effect of a statement that passes. -/
theorem Passes.perform? (h : t.Passes s effect) : effect.perform? t = some (effect.apply t) := by
  cases h with
  | @declaration ty _ hdef =>
    obtain ⟨t', ht'⟩ := exists_declare? hdef ty .uninitialized
    simp [Effect.perform?, Effect.apply, ht']
  | @initialized ty _ _ v hdef _ =>
    obtain ⟨t', ht'⟩ := exists_declare? hdef ty v
    simp [Effect.perform?, Effect.apply, ht']
  | @assignment _ _ v hdef _ =>
    obtain ⟨t', ht'⟩ := exists_assign? hdef v
    simp [Effect.perform?, Effect.apply, ht']
  | print => rfl

theorem Passes.announcement?_cases (h : t.Passes s effect) :
    (s.announcement? = none ∧ effect = .keep) ∨
      ∃ start event, s.announcement? = some start ∧ Event.ofEffect? effect = some event ∧
        ∃ v : Value, event.record = .debug (start ++ v.render) := by
  cases h with
  | declaration | initialized | assignment => exact .inr ⟨_, _, rfl, rfl, _, rfl⟩
  | print => exact .inl ⟨rfl, rfl⟩

/-- A statement that passes leaves one record, which has its effect, or none and no effect. -/
theorem Passes.changelog (h : t.Passes s effect) (hreg : ∀ e ∈ t.toList, e.IsRegular)
    (hs : s.Texts IsNumeral IsName) :
    Changelog t [s] (effect.apply t) ((Event.ofEffect? effect).toList.map Event.record) := by
  rcases h.announcement?_cases with ⟨hnone, rfl⟩ | ⟨start, event, hstart, hevent, hrecord⟩
  · exact ⟨by simp [hnone, Event.ofEffect?], rfl⟩
  · have hread : Effect.ofText? event.record.text = some effect :=
      Effect.ofText?_message (h.isRegular_effect hreg hs) hevent
    rw [hevent]
    refine ⟨?_, ?_⟩
    · rw [List.filterMap_cons_some hstart]
      exact .cons hrecord .nil
    · simp [replay?, hread, h.perform?]

theorem effects_analyze_cons (h : t.Passes s effect) (rest : List Stmt) :
    (t.analyze (s :: rest)).effects = effect :: ((effect.apply t).analyze rest).effects := by
  rw [analyze, check_eq_ok_iff.2 h]

theorem changelog_analyze {stmts : List Stmt} (hreg : ∀ e ∈ t.toList, e.IsRegular)
    (hs : ∀ s ∈ stmts, s.Texts IsNumeral IsName)
    (h : (t.analyze stmts).fault = none) :
    Changelog t stmts (t.analyze stmts).table
      (((t.analyze stmts).effects.filterMap Event.ofEffect?).map Event.record) := by
  induction stmts generalizing t with
  | nil => exact ⟨.nil, rfl⟩
  | cons s stmts ih =>
    obtain ⟨effect, hpass, hrest⟩ := fault_analyze_cons_eq_none_iff.1 h
    have hfirst := hs s (by simp)
    have hlater := ih (hpass.isRegular hreg hfirst)
      (fun s' hs' => hs s' (by simp [hs'])) hrest
    -- the statement puts its record, if it leaves one, in front of those of the rest
    have hrecords : ((t.analyze (s :: stmts)).effects.filterMap Event.ofEffect?).map Event.record =
        (Event.ofEffect? effect).toList.map Event.record ++
          (((effect.apply t).analyze stmts).effects.filterMap Event.ofEffect?).map
            Event.record := by
      rw [effects_analyze_cons hpass, List.filterMap_cons]
      cases Event.ofEffect? effect <;> rfl
    rw [table_analyze_cons hpass, hrecords]
    exact (hpass.changelog hreg hfirst).append hlater

/-- An analysis that fails is that of the statements in front of the one it fails at. -/
theorem exists_passed {stmts : List Stmt} {e : SemanticError}
    (h : (t.analyze stmts).fault = some e) :
    ∃ passed s rest, stmts = passed ++ s :: rest ∧ (t.analyze passed).fault = none ∧
      (t.analyze passed).table.check s = .error e ∧
      t.analyze stmts = { t.analyze passed with fault := some e } := by
  induction stmts generalizing t with
  | nil => cases h
  | cons s stmts ih =>
    rw [analyze] at h ⊢
    cases hcheck : t.check s with
    | error e' =>
      simp only [hcheck] at h
      obtain rfl : e' = e := Option.some.inj h
      exact ⟨[], s, stmts, rfl, rfl, hcheck, rfl⟩
    | ok effect =>
      simp only [hcheck] at h ⊢
      obtain ⟨passed, s', rest, rfl, hfault, hfail, heq⟩ := ih h
      refine ⟨s :: passed, s', rest, rfl, ?_⟩
      simp only [analyze, hcheck]
      exact ⟨hfault, hfail, by rw [heq]⟩

/-- Up to the statement that fails, an analysis leaves the same records as one that passes. -/
theorem changelog_of_fault {stmts : List Stmt} {e : SemanticError}
    (hreg : ∀ e ∈ t.toList, e.IsRegular) (hs : ∀ s ∈ stmts, s.Texts IsNumeral IsName)
    (h : (t.analyze stmts).fault = some e) :
    ∃ passed s rest, stmts = passed ++ s :: rest ∧ (t.analyze passed).fault = none ∧
      (t.analyze stmts).table.check s = .error e ∧
      Changelog t passed (t.analyze stmts).table
        (((t.analyze stmts).effects.filterMap Event.ofEffect?).map Event.record) := by
  obtain ⟨passed, s, rest, rfl, hpassed, hcheck, heq⟩ := exists_passed h
  have hchanges := changelog_analyze hreg (fun s' hs' => hs s' (by simp [hs'])) hpassed
  refine ⟨passed, s, rest, rfl, hpassed, ?_⟩
  rw [heq]
  exact ⟨hcheck, hchanges⟩

end SymbolTable

/-! ### Whole runs -/

/-- The records of scanning lines that are cut into the given segments. -/
def Record.ofLines (segments : List (List Segment)) : List Record :=
  segments.zipIdx.flatMap fun (line, n) => line.filterMap (ofSegment? (n + 1))

theorem map_record_scan (source : List Char) :
    ((scan source).filterMap fun (line, segment) => Event.ofSegment? line segment).map
        Event.record = Record.ofLines ((Text.lines source).map scanLine) := by
  rw [Record.ofLines, List.zipIdx_map, List.flatMap_map, scan, List.zipIdx_succ, List.flatMap_map,
    List.filterMap_flatMap, List.map_flatMap]
  congr 1
  funext numbered
  obtain ⟨line, n⟩ := numbered
  simp only [List.filterMap_map, List.map_filterMap, Prod.map, id_eq, Record.ofSegment?_eq]
  rfl

/-- The records of a run, stage by stage. -/
theorem records_run (source : String) :
    (run source).log.map Event.record =
      Record.ofLines ((Text.lines source.toList).map scanLine) ++
        [.debug ("lexed " ++ Nat.repr (tokenize source).length ++ " tokens")] ++
        match parse (tokenize source) with
        | .error _ => []
        | .ok p =>
          let analysis := SymbolTable.empty.analyze p.stmts
          .debug ("parsed " ++ Nat.repr p.stmts.length ++ " statements") ::
            ((analysis.effects.filterMap Event.ofEffect?).map Event.record ++
              match analysis.fault with
              | some _ => []
              | none =>
                .debug ("analysis ok, " ++ Nat.repr analysis.table.size ++ " symbols") ::
                  (p.code.map fun i => .trace ("emit: " ++ i.render)) ++
                  [.debug ("generated " ++ Nat.repr p.code.length ++ " instructions using " ++
                    Nat.repr (stmtsOperators p.stmts) ++ " temporaries")]) := by
  have hscanned := map_record_scan source.toList
  unfold run tokenize
  cases hp : parse (tokensOf (scan source.toList)) with
  | error e =>
    simp only [hp, List.map_append, hscanned, List.append_nil]
    rfl
  | ok p =>
    have htemps : (Builder.empty.program p).nextTemp = stmtsOperators p.stmts := by
      rw [Builder.program_eq]
      exact Nat.zero_add _
    simp only [hp]
    cases (SymbolTable.empty.analyze p.stmts).fault with
    | some e =>
      simp only [List.map_append, List.map_cons, hscanned, List.append_nil]
      rfl
    | none =>
      simp only [List.map_append, List.map_cons, List.map_map, hscanned, htemps,
        List.append_assoc, List.cons_append]
      rfl

/-- What the records of a run are, by its result. The lines are cut by longest match, and every
lexeme and every skipped character that is not blank has a record, in its place; then the number of
tokens follows. A text that is no program leaves no more. Else the number of statements follows and
the changelog of the statements in front of the first that breaks a rule, and, if none does, the
size of the table, the lines of the code and how many instructions and temporaries it has. -/
theorem log_tells_result (source : String) :
    ∃ segments : List (List Segment),
      List.Forall₂ Segmented (Text.lines source.toList) segments ∧
      (tokenize source = segments.zipIdx.flatMap fun (line, n) => line.filterMap fun
        | .lexeme kind text => some ⟨kind, String.ofList text, n + 1⟩
        | .skipped _ => none) ∧
      let scanned := Record.ofLines segments ++
        [.debug ("lexed " ++ Nat.repr (tokenize source).length ++ " tokens")]
      let parsed (p : Program) : Record :=
        .debug ("parsed " ++ Nat.repr p.stmts.length ++ " statements")
      let generated (out : Compilation) : List Record :=
        .debug ("analysis ok, " ++ Nat.repr out.symbols.size ++ " symbols") ::
          (out.codeLines.map fun line => .trace ("emit: " ++ line)) ++
          [.debug ("generated " ++ Nat.repr out.code.length ++ " instructions using " ++
            Nat.repr (temporaries out.code).toFinset.card ++ " temporaries")]
      let records := (run source).log.map Event.record
      match (run source).result with
      | .error (.malformed e) => parse (tokenize source) = .error e ∧ records = scanned
      | .error (.misused e) =>
        ∃ p passed s rest changes, parse (tokenize source) = .ok p ∧ p.stmts = passed ++ s :: rest ∧
          (SymbolTable.empty.analyze passed).fault = none ∧
          let table := (SymbolTable.empty.analyze p.stmts).table
          table.check s = .error e ∧ Changelog .empty passed table changes ∧
          records = scanned ++ parsed p :: changes
      | .ok out =>
        parse (tokenize source) = .ok out.program ∧
          ∃ changes, Changelog .empty out.program.stmts out.symbols changes ∧
            records = scanned ++ parsed out.program :: (changes ++ generated out) := by
  refine ⟨_, forall₂_segmented_iff.2 rfl, tokenize_eq_lexemes source, ?_⟩
  intro scanned parsed generated records
  have hrecords := records_run source
  cases hp : parse (tokenize source) with
  | error e =>
    have hresult : (run source).result = .error (.malformed e) :=
      compile_eq_error_iff.2 (.inl ⟨e, hp, rfl⟩)
    rw [hp] at hrecords
    rw [hresult]
    exact ⟨rfl, hrecords.trans (List.append_nil _)⟩
  | ok p =>
    have hnamed := named_of_parse hp
    cases hfault : (SymbolTable.empty.analyze p.stmts).fault with
    | some e =>
      obtain ⟨passed, s, rest, hstmts, hpassed, hcheck, hchanges⟩ :=
        SymbolTable.changelog_of_fault (by simp) hnamed hfault
      have hresult : (run source).result = .error (.misused e) :=
        compile_eq_error_iff.2 (.inr ⟨p, e, hp, hfault, rfl⟩)
      simp only [hp, hfault, List.append_nil] at hrecords
      rw [hresult]
      exact ⟨p, passed, s, rest, _, rfl, hstmts, hpassed, hcheck, hchanges, hrecords⟩
    | none =>
      have hchanges := SymbolTable.changelog_analyze (by simp) hnamed hfault
      have hresult : (run source).result = .ok ⟨tokenize source, p, p.code,
          (SymbolTable.empty.analyze p.stmts).table⟩ :=
        compile_eq_ok_iff.2 ⟨p, hp, hfault, rfl⟩
      simp only [hp, hfault] at hrecords
      rw [hresult]
      refine ⟨rfl, _, hchanges, ?_⟩
      simp only [generated, Compilation.codeLines, List.map_map, card_temporaries]
      exact hrecords

end ThreeAddress
