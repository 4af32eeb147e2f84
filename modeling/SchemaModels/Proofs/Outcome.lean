import SchemaModels.Proofs.Session

/-! # What a run comes to

A run fails for the first name that cannot be written, else for the unresolved names if these are
refused, else for a cycle; if there is none of all this then it gives a module. Which case it is can be
read off the definitions of the document. -/

namespace SchemaModels

/-- The names of a document that cannot be written, each with its owner, in order. -/
def Document.offences (doc : Document) (reserved : List String) : List (String × String) :=
  doc.definitions.flatMap fun d => (d.content.offences reserved).map (d.name, ·)

/-- The warnings of a run. -/
def Run.warnings {α : Type} (r : Run α) : List LogEntry := r.log.filter (·.level == .warning)

/-! ## Settings that can be used -/

/-- Options that give no fault. -/
structure Options.Usable (o : Options) (overrides : Overrides) (reserved : List String) : Prop where
  overrides : o.overrides = .ok overrides
  reserved : o.reserved = .oneOf reserved

/-- Settings in which the scalars map names to texts and the reserved names are listed. -/
structure Settings.WellTyped (c : Settings) : Prop where
  scalars : ∃ es, c.scalars = some (.object es) ∧ ∀ e ∈ es, ∃ text, e.2 = .text text
  reserved : ∃ names, c.reservedFieldNames = some (.list names)

theorem Overrides.exists_ofEntries (standIn : Char) {es : List (Setting.Key × Setting)}
    (h : ∀ e ∈ es, ∃ text, e.2 = .text text) : ∃ overrides, ofEntries standIn es = .ok overrides := by
  induction es with
  | nil => exact ⟨_, rfl⟩
  | cons e es ih =>
    obtain ⟨rest, hrest⟩ := ih fun e' he' => h e' (List.mem_cons_of_mem e he')
    obtain ⟨k, v⟩ := e
    obtain ⟨text, rfl⟩ := h _ List.mem_cons_self
    rw [ofEntries]
    simp only [hrest]
    cases k.name? <;> exact ⟨_, rfl⟩

theorem Setting.exists_mapping {es : List (RawText × Setting)}
    (h : ∀ e ∈ es, ∃ text, e.2 = .text text) :
    ∃ table, (Setting.object es).mapping = .ok table ∧
      ∀ e ∈ table.entries, ∃ text, e.2 = .text text := by
  have hmapping : (Setting.object es).mapping = .ok (.ofList (es.map fun e => (.text e.1, e.2))) := by
    cases es <;> rfl
  refine ⟨_, hmapping, fun e he => ?_⟩
  have hvalue := Table.mem_values_insertAll (List.mem_map_of_mem (f := (·.2)) he)
  rw [List.map_map] at hvalue
  obtain ⟨e', he', heq⟩ := List.mem_map.mp (hvalue.resolve_right List.not_mem_nil)
  obtain ⟨text, htext⟩ := h e' he'
  exact ⟨text, heq.symm.trans htext⟩

theorem Settings.WellTyped.exists_usable {c : Settings} (hc : c.WellTyped) :
    ∃ overrides reserved, c.options.Usable overrides reserved := by
  obtain ⟨es, hscalars, htexts⟩ := hc.scalars
  obtain ⟨names, hnames⟩ := hc.reserved
  obtain ⟨table, htable, hentries⟩ := Setting.exists_mapping htexts
  obtain ⟨overrides, hoverrides⟩ := Overrides.exists_ofEntries '\ufffd' hentries
  have hoptions : c.options.overrides = .ok overrides := by
    rw [Settings.options, Settings.optionsWith, hscalars]
    change (Setting.object es).mapping >>= _ = _
    rw [htable]
    exact hoverrides
  have hreserved : ∃ reserved, c.options.reserved = .oneOf reserved := by
    rw [Settings.options, Settings.optionsWith, hnames]
    exact ⟨_, rfl⟩
  exact hreserved.elim fun reserved h => ⟨overrides, reserved, hoptions, h⟩

/-! ## The order of the steps -/

namespace Session

variable {s : Session} {o : Options} {t : ScalarTable} {ds : List (Definition Empty)}

theorem body_of_not_hasCycle (H : s.Covers o t ds) (h : ¬HasCycle t ds) :
    ∃ body, s.body = .ok body := by
  obtain ⟨l, hl⟩ := (DependencyGraph.order_eq_ok_iff H.wf).mpr (mt H.cyclic_iff.mp h)
  rw [body, blocks, order, hl]
  exact ⟨_, rfl⟩

theorem body_of_hasCycle (H : s.Covers o t ds) (h : HasCycle t ds) :
    ∃ cycle, s.body = .error (.cycle cycle) := by
  obtain ⟨cycle, hcycle⟩ := (DependencyGraph.order_eq_error_iff H.wf).mpr (H.cyclic_iff.mpr h)
  rw [body, blocks, order, hcycle]
  exact ⟨cycle, rfl⟩

end Session

namespace Generator

open Session

theorem result_assemble (s : Session) (comment : String) :
    (assemble s comment).result =
      s.checkReferences >>= fun _ => s.body.map fun body =>
        ⟨s.header, body, renderModule s.header body (if s.options.comment then comment else "")⟩ := by
  rw [assemble]
  cases s.checkReferences with
  | error e => rfl
  | ok warnings => cases s.body <;> rfl

theorem ofDocument_eq (o : Options) (doc : Document) (comment : String) :
    ofDocument o doc comment =
      ⟨(Schema.ofDocument doc).2 ++ (ofSchema o (Schema.ofDocument doc).1 comment).log,
        (ofSchema o (Schema.ofDocument doc).1 comment).result⟩ :=
  rfl

theorem ofSchema_of_ok {o : Options} {schema : Schema} {s : Session}
    (h : (declareSchema o schema).result = .ok s) (comment : String) :
    ofSchema o schema comment =
      ⟨(declareSchema o schema).log ++ (assemble s comment).log, (assemble s comment).result⟩ := by
  rw [ofSchema, h]

theorem ofSchema_of_error {o : Options} {schema : Schema} {e : Failure}
    (h : (declareSchema o schema).result = .error e) (comment : String) :
    ofSchema o schema comment = ⟨(declareSchema o schema).log, .error e⟩ := by
  rw [ofSchema, h]

/-- A run declares all definitions and then assembles their session, up to the first failure. -/
theorem result_ofDocument (o : Options) (doc : Document) (comment : String) :
    (ofDocument o doc comment).result =
      (declareSchema o (Schema.ofDocument doc).1).result >>= fun s => (assemble s comment).result := by
  rw [ofDocument_eq]
  cases hs : (declareSchema o (Schema.ofDocument doc).1).result with
  | error e => rw [ofSchema_of_error hs]; rfl
  | ok s => rw [ofSchema_of_ok hs]; rfl

theorem result_of_session {o : Options} {doc : Document} {s : Session}
    (hs : (declareSchema o (Schema.ofDocument doc).1).result = .ok s) (comment : String) :
    (ofDocument o doc comment).result = (assemble s comment).result := by
  rw [ofDocument_eq, ofSchema_of_ok hs]

variable {o : Options} {overrides : Overrides} {reserved : List String} {doc : Document}

/-- The definitions of a document are refused for the first of its offences, and declared if it has
none. -/
theorem reportsFirst_declareSchema (ho : o.Usable overrides reserved) (doc : Document) :
    ReportsFirst ((doc.offences reserved).map fun p => .invalidIdentifier p.1 p.2)
      (declareSchema o (Schema.ofDocument doc).1).result := by
  have hdeclare : ∀ d ∈ doc.definitions,
      ReportsFirst ((d.content.offences reserved).map (.invalidIdentifier d.name))
        (o.declare (doc.scalarTable overrides) d.widen).result :=
    fun d _ => reportsFirst_declare ho.reserved d
  rw [result_declareSchema ho.overrides, Schema.definitions_ofDocument, Document.offences,
    List.map_flatMap]
  simp only [List.map_map]
  exact (ReportsFirst.mapM' hdeclare).map _

theorem result_of_offence (ho : o.Usable overrides reserved) {owner name : String}
    {rest : List (String × String)} (h : doc.offences reserved = (owner, name) :: rest)
    (comment : String) :
    (ofDocument o doc comment).result = .error (.invalidIdentifier owner name) := by
  have hfirst := reportsFirst_declareSchema ho doc
  rw [h] at hfirst
  rw [result_ofDocument, (hfirst : _ = Except.error _)]
  rfl

/-- A document without offences has a session. -/
theorem exists_session (ho : o.Usable overrides reserved) (h : doc.offences reserved = []) :
    ∃ s, (declareSchema o (Schema.ofDocument doc).1).result = .ok s ∧
      s.Covers o (doc.scalarTable overrides) doc.definitions := by
  have hfirst := reportsFirst_declareSchema ho doc
  rw [h] at hfirst
  obtain ⟨s, hs⟩ := hfirst
  exact ⟨s, hs, covers_of_declareSchema ho.overrides hs⟩

section

variable (ho : o.Usable overrides reserved) (hoffences : doc.offences reserved = [])
  (comment : String)

include ho hoffences

theorem result_of_unresolved (hstrict : o.strict = true)
    (h : unresolvedNames (doc.scalarTable overrides) doc.definitions ≠ []) :
    (ofDocument o doc comment).result =
      .error (.unresolved (unresolvedNames (doc.scalarTable overrides) doc.definitions)) := by
  obtain ⟨s, hs, hcovers⟩ := exists_session ho hoffences
  rw [← hcovers.unresolved_eq] at h ⊢
  rw [result_of_session hs, result_assemble, checkReferences_eq, if_pos ⟨hcovers.options ▸ hstrict, h⟩]
  rfl

/-- If no unresolved name is refused then only a cycle stands in the way of a module. -/
theorem result_of_resolved (h : ¬(o.strict = true ∧
      unresolvedNames (doc.scalarTable overrides) doc.definitions ≠ [])) :
    (HasCycle (doc.scalarTable overrides) doc.definitions →
        ∃ cycle, (ofDocument o doc comment).result = .error (.cycle cycle)) ∧
      (¬HasCycle (doc.scalarTable overrides) doc.definitions →
        ∃ m, (ofDocument o doc comment).result = .ok m) := by
  obtain ⟨s, hs, hcovers⟩ := exists_session ho hoffences
  rw [← hcovers.unresolved_eq, ← hcovers.options] at h
  rw [result_of_session hs, result_assemble, checkReferences_eq, if_neg h]
  constructor
  · intro hcycle
    obtain ⟨cycle, hbody⟩ := body_of_hasCycle hcovers hcycle
    rw [hbody]
    exact ⟨cycle, rfl⟩
  · intro hcycle
    obtain ⟨body, hbody⟩ := body_of_not_hasCycle hcovers hcycle
    rw [hbody]
    exact ⟨_, rfl⟩

end

end Generator

/-! ## Warnings -/

namespace Schema

theorem level_foldExtensions {ds : List (Definition Empty)} {nodes : List Document.Node} {e : LogEntry}
    (h : e ∈ (foldExtensions ds nodes).2) : e.level = .debug := by
  induction nodes generalizing ds with
  | nil => cases h
  | cons node nodes ih =>
    cases node with
    | extension name part =>
      rw [foldExtensions] at h
      cases hlast : extendLast name part ds with
      | some ds' =>
        rw [hlast] at h
        exact ih h
      | none =>
        rw [hlast] at h
        rcases List.mem_cons.mp h with rfl | h
        · rfl
        · exact ih h
    | scalarExtension name =>
      rcases List.mem_cons.mp h with rfl | h
      · rfl
      · exact ih h
    | _ => exact ih h

theorem level_ofDocument {doc : Document} {e : LogEntry} (h : e ∈ (ofDocument doc).2) :
    e.level = .debug := by
  rcases List.mem_append.mp h with hskipped | hfold
  · obtain ⟨node, -, hnode⟩ := List.mem_filterMap.mp hskipped
    cases node <;> cases hnode
    rfl
  · exact level_foldExtensions hfold

end Schema

namespace Generator

open Session

theorem level_declareAll {s : Session} {ds : List (Definition Empty)} {e : LogEntry}
    (h : e ∈ (declareAll s ds).log) : e.level = .debug := by
  induction ds generalizing s with
  | nil => cases h
  | cons d ds ih =>
    rw [declareAll] at h
    split at h
    · rcases List.mem_cons.mp h with rfl | h
      · rfl
      · exact ih h
    · cases List.mem_singleton.mp h
      rfl

theorem level_declareSchema {o : Options} {schema : Schema} {e : LogEntry}
    (h : e ∈ (declareSchema o schema).log) : e.level = .debug := by
  rw [declareSchema] at h
  split at h
  · cases h
  · exact level_declareAll h

theorem warnings_ofDocument {o : Options} {doc : Document} {s : Session}
    (hs : (declareSchema o (Schema.ofDocument doc).1).result = .ok s) (comment : String) :
    (ofDocument o doc comment).warnings = (assemble s comment).warnings := by
  have hdebug : ∀ {l : List LogEntry}, (∀ e ∈ l, e.level = .debug) →
      l.filter (·.level == .warning) = [] := by
    intro l hl
    refine List.filter_eq_nil_iff.mpr fun e he => ?_
    rw [hl e he]
    decide
  have hlog : (ofDocument o doc comment).log =
      (Schema.ofDocument doc).2 ++
        ((declareSchema o (Schema.ofDocument doc).1).log ++ (assemble s comment).log) := by
    rw [ofDocument_eq, ofSchema_of_ok hs]
  rw [Run.warnings, hlog, List.filter_append, List.filter_append,
    hdebug fun e => Schema.level_ofDocument, hdebug fun e => level_declareSchema]
  rfl

theorem warnings_assemble {s : Session} {names : List String}
    (h : s.checkReferences = .ok (names.map .undeclared)) (comment : String) :
    (assemble s comment).warnings = names.map .undeclared := by
  have hnames : (names.map LogEntry.undeclared).filter (·.level == .warning) =
      names.map .undeclared := by
    refine List.filter_eq_self.mpr fun e he => ?_
    obtain ⟨n, -, rfl⟩ := List.mem_map.mp he
    rfl
  rw [Run.warnings, assemble, h]
  cases s.body with
  | error e => exact hnames
  | ok body => exact (List.filter_append ..).trans ((List.append_nil _).trans hnames)

end Generator

/-! ## Strict and permissive runs -/

/-- The options with a choice between strict and permissive. -/
def Options.withStrict (o : Options) (strict : Bool) : Options := { o with strict }

def Session.withStrict (s : Session) (strict : Bool) : Session :=
  { s with options := s.options.withStrict strict }

namespace Generator

open Session

variable (strict : Bool)

theorem declare_withStrict (s : Session) (d : Definition Gap) :
    (s.withStrict strict).declare d = ((s.declare d).1.withStrict strict, (s.declare d).2) :=
  rfl

/-- The choice makes no difference to declarations. -/
theorem declareAll_withStrict (s : Session) (ds : List (Definition Empty)) :
    declareAll (s.withStrict strict) ds =
      ⟨(declareAll s ds).log, (declareAll s ds).result.map (·.withStrict strict)⟩ := by
  induction ds generalizing s with
  | nil => rfl
  | cons d ds ih =>
    rw [declareAll, declareAll, declare_withStrict]
    obtain ⟨s', e | D⟩ := s.declare d.widen
    · rfl
    · have hrest := ih (s'.addDeclaration D)
      change declareAll ((s'.withStrict strict).addDeclaration D) ds = _ at hrest
      simp only [hrest]

theorem declareSchema_withStrict (o : Options) (schema : Schema) :
    declareSchema (o.withStrict strict) schema =
      ⟨(declareSchema o schema).log,
        (declareSchema o schema).result.map (·.withStrict strict)⟩ := by
  cases hoverrides : o.overrides with
  | error fault =>
    rw [declareSchema_of_error hoverrides, declareSchema_of_error (o := o.withStrict strict) hoverrides]
    rfl
  | ok overrides =>
    rw [declareSchema_of_ok hoverrides, declareSchema_of_ok (o := o.withStrict strict) hoverrides]
    exact declareAll_withStrict strict
      (initial o (.ofCustom schema.customScalars overrides) schema.positions) schema.definitions

theorem assemble_withStrict {s : Session} (h : s.unresolved = []) (comment : String) :
    assemble (s.withStrict strict) comment = assemble s comment := by
  have hchecked : ∀ {s : Session}, s.unresolved = [] → s.checkReferences = .ok [] := by
    intro s hs
    rw [checkReferences, hs]
  rw [assemble, assemble, hchecked h, hchecked (s := s.withStrict strict) h]
  rfl

/-- Where nothing is unresolved, strict and permissive runs are the same. -/
theorem ofDocument_withStrict {o : Options} {doc : Document}
    (h : ∀ s, (declareSchema o (Schema.ofDocument doc).1).result = .ok s → s.unresolved = [])
    (comment : String) :
    ofDocument (o.withStrict strict) doc comment = ofDocument o doc comment := by
  have hdeclared := declareSchema_withStrict strict o (Schema.ofDocument doc).1
  rw [ofDocument_eq, ofDocument_eq]
  cases hs : (declareSchema o (Schema.ofDocument doc).1).result with
  | error e =>
    rw [hs] at hdeclared
    rw [ofSchema_of_error hs, ofSchema_of_error (congrArg Run.result hdeclared), hdeclared]
  | ok s =>
    rw [hs] at hdeclared
    rw [ofSchema_of_ok hs, ofSchema_of_ok (congrArg Run.result hdeclared), hdeclared,
      assemble_withStrict strict (h s hs)]

/-! ## All outcomes -/

/-- What a run comes to. The first name that cannot be written is refused before all else; then the
unresolved names are, in strict mode, and then a cycle. Otherwise there is a module. A permissive run
warns of the unresolved names, and without any it is the same as a strict one. -/
theorem result_by_first_obstacle (c : Settings) (hc : c.WellTyped) (doc : Document)
    (comment : String) :
    ∃ overrides reserved, c.options.Usable overrides reserved ∧
      let t := doc.scalarTable overrides
      let unresolved := unresolvedNames t doc.definitions
      let run := ofDocument c.options doc comment
      (unresolved.Pairwise (· < ·) ∧ ∀ n, n ∈ unresolved ↔ Unresolved t doc.definitions n) ∧
      (∀ owner name rest, doc.offences reserved = (owner, name) :: rest →
        run.result = .error (.invalidIdentifier owner name)) ∧
      (doc.offences reserved = [] →
        (c.options.strict = true → unresolved ≠ [] → run.result = .error (.unresolved unresolved)) ∧
        (¬(c.options.strict = true ∧ unresolved ≠ []) →
          (HasCycle t doc.definitions → ∃ cycle, run.result = .error (.cycle cycle)) ∧
          (¬HasCycle t doc.definitions → ∃ m, run.result = .ok m)) ∧
        (c.options.strict = false → run.warnings = unresolved.map .undeclared)) ∧
      (unresolved = [] → ∀ v : Setting,
        ofDocument { c with strictReferences := v }.options doc comment = run) := by
  obtain ⟨overrides, reserved, ho⟩ := hc.exists_usable
  refine ⟨overrides, reserved, ho, ⟨pairwise_unresolvedNames _ _, fun n => mem_unresolvedNames⟩,
    fun owner name rest hfirst => result_of_offence ho hfirst comment, fun hoffences => ?_, ?_⟩
  · refine ⟨result_of_unresolved ho hoffences comment, result_of_resolved ho hoffences comment, ?_⟩
    intro hpermissive
    obtain ⟨s, hs, hcovers⟩ := exists_session ho hoffences
    rw [warnings_ofDocument hs, ← hcovers.unresolved_eq]
    refine warnings_assemble ?_ comment
    rw [checkReferences_eq, hcovers.options, hpermissive]
    exact if_neg fun h => Bool.false_ne_true h.1
  · intro hresolved v
    change ofDocument (c.options.withStrict v.truthy) doc comment = ofDocument c.options doc comment
    refine ofDocument_withStrict v.truthy (fun s hs => ?_) comment
    rw [(covers_of_declareSchema ho.overrides hs).unresolved_eq, hresolved]

/-- In strict mode, a value that is a keyword comes before an unresolved name, and this before a
cycle. -/
theorem result_by_first_obstacle_strict :
    let c : Settings := { strictReferences := .bool true }
    let value := Document.Node.definition "Colour" (.enum ["RED", "None"])
    let cyclic := fun type => Document.Node.definition "A" (.object [⟨"owner", .named type⟩] ["A"])
    c.WellTyped ∧
      (ofDocument c.options ⟨[cyclic "Person", value]⟩ "").result =
        .error (.invalidIdentifier "Colour" "None") ∧
      (ofDocument c.options ⟨[cyclic "Person"]⟩ "").result = .error (.unresolved ["Person"]) ∧
      ∃ cycle, (ofDocument c.options ⟨[cyclic "ID"]⟩ "").result = .error (.cycle cycle) := by
  intro c value cyclic
  have hc : c.WellTyped := ⟨⟨[], rfl, nofun⟩, ⟨_, rfl⟩⟩
  refine ⟨hc, ?_, ?_, ?_⟩
  · obtain ⟨overrides, reserved, ho, -, hoffence, -⟩ :=
      result_by_first_obstacle c hc ⟨[cyclic "Person", value]⟩ ""
    cases ho.overrides
    cases ho.reserved
    exact hoffence "Colour" "None" [] (by decide +kernel)
  · obtain ⟨overrides, reserved, ho, -, -, hrest, -⟩ :=
      result_by_first_obstacle c hc ⟨[cyclic "Person"]⟩ ""
    cases ho.overrides
    cases ho.reserved
    have hnames : unresolvedNames (Document.scalarTable ⟨[cyclic "Person"]⟩ {})
        (Document.definitions ⟨[cyclic "Person"]⟩) = ["Person"] := by decide +kernel
    have hrefused := (hrest (by decide +kernel)).1 rfl
    rw [hnames] at hrefused
    exact hrefused (List.cons_ne_nil _ _)
  · obtain ⟨overrides, reserved, ho, -, -, hrest, -⟩ :=
      result_by_first_obstacle c hc ⟨[cyclic "ID"]⟩ ""
    cases ho.overrides
    cases ho.reserved
    have hnames : unresolvedNames (Document.scalarTable ⟨[cyclic "ID"]⟩ {})
        (Document.definitions ⟨[cyclic "ID"]⟩) = [] := by decide +kernel
    have hself : StandsAfter (Document.scalarTable ⟨[cyclic "ID"]⟩ {})
        (Document.definitions ⟨[cyclic "ID"]⟩) "A" "A" :=
      ⟨⟨_, List.mem_singleton_self _, rfl, List.mem_singleton_self _⟩, by decide, by decide⟩
    obtain ⟨hcycle, -⟩ := (hrest (by decide +kernel)).2.1 fun h => h.2 hnames
    exact hcycle ⟨"A", .single hself⟩

end Generator

end SchemaModels
