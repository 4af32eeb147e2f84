import Mathlib.Data.List.Dedup
import Mathlib.Data.List.Sort
import Mathlib.Data.String.Basic
import SchemaModels.Generator
import SchemaModels.Proofs.Declaration
import SchemaModels.Proofs.Extensions
import SchemaModels.Proofs.Graph.Order
import SchemaModels.Proofs.Imports
import SchemaModels.Proofs.Table

/-! # The session of a schema

Definitions are declared one after the other, but what each is declared as depends on the options and
the scalars alone. So the session that they lead to can be said at once (`Session.after`), and its
table, its graph and its names are those of the declarations. -/

namespace SchemaModels

open DependencyGraph (entryCalls)

namespace Session

/-! ## One declaration -/

/-- The session after some declarations, with what was used for each. -/
def after (s : Session) (used : List Usage) (declared : List Declaration) : Session :=
  { s with
    usage := used.foldl Usage.merge s.usage
    graph := s.graph.applyAll (entries declared)
    declarations := s.declarations.insertAll (declared.map fun D => (D.name, D)) }

theorem declare_of_ok {s : Session} {d : Definition Gap} {D : Declaration}
    (h : (s.options.declare s.scalars d).result = .ok D) :
    s.declare d =
      ({ s with
          usage := s.usage.merge (s.options.declare s.scalars d).usage
          graph := s.graph.applyAll (entryCalls D.name D.dependsOn) }, .ok D) := by
  rw [declare, record, calls_declare_of_ok h, h]

/-- One more declaration in front, one less to come. -/
theorem after_cons (s : Session) (u : Usage) (used : List Usage) (D : Declaration)
    (declared : List Declaration) :
    s.after (u :: used) (D :: declared) =
      (addDeclaration { s with
        usage := s.usage.merge u
        graph := s.graph.applyAll (entryCalls D.name D.dependsOn) } D).after used declared := by
  simp only [after, addDeclaration, entries, List.flatMap_cons, DependencyGraph.applyAll, List.foldl_append,
    List.foldl_cons, List.map_cons, Table.insertAll]

end Session

namespace Generator

open Session

/-! ## All declarations -/

/-- Definitions lead to a session exactly if each has a declaration, and then to the session after
these; otherwise the first failure stands. -/
theorem result_declareAll (s : Session) (ds : List (Definition Empty)) :
    (declareAll s ds).result =
      (ds.mapM' fun d => (s.options.declare s.scalars d.widen).result).map
        (s.after (ds.map fun d => (s.options.declare s.scalars d.widen).usage)) := by
  induction ds generalizing s with
  | nil => rfl
  | cons d ds ih =>
    rw [declareAll, List.mapM'_cons, List.map_cons]
    cases h : (s.options.declare s.scalars d.widen).result with
    | error e =>
      rw [declare, record, h]
      rfl
    | ok D =>
      rw [declare_of_ok h]
      have hrest := ih (addDeclaration { s with
        usage := s.usage.merge (s.options.declare s.scalars d.widen).usage
        graph := s.graph.applyAll (entryCalls D.name D.dependsOn) } D)
      refine hrest.trans ?_
      -- a declaration keeps the options and the scalars, so the others come out as from `s`
      change (ds.mapM' fun d => (s.options.declare s.scalars d.widen).result).map _ = _
      cases ds.mapM' fun d => (s.options.declare s.scalars d.widen).result with
      | error e => rfl
      | ok declared => exact congrArg Except.ok (after_cons s _ _ D declared).symm

end Generator

/-! ## Declarations of definitions -/

/-- The declarations of definitions, in order, or the first failure. -/
def declarationsOf (o : Options) (t : ScalarTable) (ds : List (Definition Empty)) :
    Except Failure (List Declaration) :=
  ds.mapM' fun d => (o.declare t d.widen).result

section

variable {o : Options} {t : ScalarTable} {ds : List (Definition Empty)}
  {declared : List Declaration}

theorem exists_definition (h : declarationsOf o t ds = .ok declared) {D : Declaration}
    (hD : D ∈ declared) : ∃ d ∈ ds, (o.declare t d.widen).result = .ok D :=
  exists_of_map_eq_ok (mapM'_eq_ok_iff.mp h) hD

theorem exists_declaration (h : declarationsOf o t ds = .ok declared) {d : Definition Empty}
    (hd : d ∈ ds) : ∃ D ∈ declared, (o.declare t d.widen).result = .ok D := by
  have hmem := List.mem_map_of_mem (f := fun d => (o.declare t d.widen).result) hd
  rw [mapM'_eq_ok_iff.mp h] at hmem
  obtain ⟨D, hD, hok⟩ := List.mem_map.mp hmem
  exact ⟨D, hD, hok.symm⟩

theorem names_declarationsOf (h : declarationsOf o t ds = .ok declared) :
    declared.map (·.name) = ds.map (·.name) := by
  have hmap := mapM'_eq_ok_iff.mp h
  clear h
  induction ds generalizing declared with
  | nil => rw [List.map_eq_nil_iff.mp hmap.symm, List.map_nil, List.map_nil]
  | cons d ds ih =>
    cases declared with
    | nil => cases hmap
    | cons D declared =>
      obtain ⟨hd, hds⟩ := List.cons.inj hmap
      rw [List.map_cons, List.map_cons, (declares_of_ok hd).name, ih hds]

/-- A fact about some declaration, said of its definition. -/
theorem exists_declared_iff (h : declarationsOf o t ds = .ok declared)
    {P : String → List String → Prop} :
    (∃ D ∈ declared, P D.name D.dependsOn) ↔ ∃ d ∈ ds, P d.name (d.content.dependencies t) := by
  constructor
  · rintro ⟨D, hD, hP⟩
    obtain ⟨d, hd, hok⟩ := exists_definition h hD
    have hdeclares := declares_of_ok hok
    exact ⟨d, hd, by rwa [← hdeclares.name, ← hdeclares.dependsOn]⟩
  · rintro ⟨d, hd, hP⟩
    obtain ⟨D, hD, hok⟩ := exists_declaration h hd
    have hdeclares := declares_of_ok hok
    exact ⟨D, hD, by rwa [hdeclares.name, hdeclares.dependsOn]⟩

end

/-! ## What definitions ask for -/

/-- A name that definitions mention, but neither a scalar nor one of them has. -/
structure Unresolved (t : ScalarTable) (ds : List (Definition Empty)) (n : String) : Prop where
  mentioned : ∃ d ∈ ds, n ∈ d.content.typeNames ∨ n ∈ d.content.interfaces
  not_scalar : t.contains n = false
  not_declared : n ∉ ds.map (·.name)

/-- The unresolved names, in order. -/
def unresolvedNames (t : ScalarTable) (ds : List (Definition Empty)) : List String :=
  ((ds.flatMap fun d => d.content.typeNames ++ d.content.interfaces).filter fun n =>
    !t.contains n && !(ds.map (·.name)).contains n).dedup.mergeSort

/-- A definition of the first name has to stand after the second name. Names that belong to scalar
types have no place in the order. -/
def StandsAfter (t : ScalarTable) (ds : List (Definition Empty)) (a b : String) : Prop :=
  (∃ d ∈ ds, d.name = a ∧ b ∈ d.content.dependencies t) ∧ a ∉ t.taken ∧ b ∉ t.taken

/-- Some name has to stand after itself, directly or through others. -/
def HasCycle (t : ScalarTable) (ds : List (Definition Empty)) : Prop :=
  ∃ n, Relation.TransGen (StandsAfter t ds) n n

/-- There is no cycle if names have ranks that every definition raises. -/
theorem not_hasCycle_of_rank {t : ScalarTable} {ds : List (Definition Empty)} (rank : String → Nat)
    (h : ∀ d ∈ ds, ∀ b ∈ d.content.dependencies t, rank b < rank d.name) : ¬HasCycle t ds := by
  have hstep : ∀ {a b}, StandsAfter t ds a b → rank b < rank a := by
    rintro a b ⟨⟨d, hd, rfl, hb⟩, -⟩
    exact h d hd b hb
  have hpath : ∀ {a b}, Relation.TransGen (StandsAfter t ds) a b → rank b < rank a := by
    intro a b hab
    induction hab with
    | single hab => exact hstep hab
    | tail _ hbc ih => exact (hstep hbc).trans ih
  rintro ⟨n, hn⟩
  exact (hpath hn).false

theorem mem_unresolvedNames {t : ScalarTable} {ds : List (Definition Empty)} {n : String} :
    n ∈ unresolvedNames t ds ↔ Unresolved t ds n := by
  rw [unresolvedNames, List.mem_mergeSort, List.mem_dedup, List.mem_filter, List.mem_flatMap]
  simp only [List.mem_append, Bool.and_eq_true, Bool.not_eq_true', List.contains_eq_mem,
    decide_eq_false_iff_not]
  exact ⟨fun ⟨hm, hs, hd⟩ => ⟨hm, hs, hd⟩, fun ⟨hm, hs, hd⟩ => ⟨hm, hs, hd⟩⟩

theorem pairwise_unresolvedNames (t : ScalarTable) (ds : List (Definition Empty)) :
    (unresolvedNames t ds).Pairwise (· < ·) :=
  pairwise_lt_mergeSort (List.nodup_dedup _)

/-! ## What a session holds -/

namespace Session

/-- A session in which nothing is declared. -/
def initial (o : Options) (t : ScalarTable) (positions : Table String Int) : Session :=
  { options := o, scalars := t, graph := { excluded := t.taken, positions } }

/-- What a session holds in which definitions are declared, with these options and scalars. -/
structure Covers (s : Session) (o : Options) (t : ScalarTable) (ds : List (Definition Empty)) :
    Prop where
  options : s.options = o
  scalars : s.scalars = t
  wf : s.graph.WF
  nodes : ∀ {n}, n ∈ s.graph.nodes ↔
    (∃ d ∈ ds, n = d.name ∨ n ∈ d.content.dependencies t) ∧ n ∉ t.taken
  dependsOn : ∀ {a b}, s.graph.DependsOn a b ↔ StandsAfter t ds a b
  contains : ∀ {n}, s.declarations.contains n = true ↔ n ∈ ds.map (·.name)
  declared : ∀ {n D}, s.declarations.get? n = some D →
    ∃ d ∈ ds, d.name = n ∧ (o.declare t d.widen).result = .ok D
  get? : (ds.map (·.name)).Nodup → ∀ {d}, d ∈ ds →
    ∃ D, (o.declare t d.widen).result = .ok D ∧ s.declarations.get? d.name = some D
  declares : ∀ d ∈ ds, ∃ D, (o.declare t d.widen).result = .ok D
  usage : ∀ {P : Usage → Prop}, Usage.Additive P →
    (P s.usage ↔ ∃ d ∈ ds, P (o.declare t d.widen).usage)
  stable : ∀ {Q : Usage → Prop}, Usage.Stable Q → Q s.usage

variable {s : Session} {o : Options} {t : ScalarTable} {ds : List (Definition Empty)}

theorem covers_after {declared : List Declaration} (positions : Table String Int)
    (h : declarationsOf o t ds = .ok declared) :
    ((initial o t positions).after (ds.map fun d => (o.declare t d.widen).usage) declared).Covers
      o t ds where
  options := rfl
  scalars := rfl
  wf := (DependencyGraph.WF.empty t.taken positions).applyAll _
  nodes := by
    intro n
    have hnames := exists_declared_iff h (P := fun name names => n = name ∨ n ∈ names)
    rw [after, DependencyGraph.mem_nodes_applyAll, exists_mem_entries, hnames]
    exact or_iff_right List.not_mem_nil
  dependsOn := by
    intro a b
    have hedges := exists_declared_iff h (P := fun name names => name = a ∧ b ∈ names)
    rw [DependencyGraph.DependsOn, DependencyGraph.mem_dependencies, StandsAfter, after,
      DependencyGraph.mem_edges_applyAll, edge_mem_entries, hedges]
    exact or_iff_right List.not_mem_nil
  contains := by
    intro n
    rw [after, Table.contains_insertAll, List.map_map, ← names_declarationsOf h]
    exact or_iff_left Bool.false_ne_true
  declared := by
    intro n D hD
    have hmem := (Table.mem_of_get?_insertAll hD).resolve_right (Option.not_mem_none D)
    obtain ⟨D', hD', heq⟩ := List.mem_map.mp hmem
    cases heq
    obtain ⟨d, hd, hok⟩ := exists_definition h hD'
    exact ⟨d, hd, (declares_of_ok hok).name.symm, hok⟩
  get? := by
    intro hnodup d hd
    obtain ⟨D, hD, hok⟩ := exists_declaration h hd
    refine ⟨D, hok, Table.get?_insertAll_of_mem ?_ ?_⟩
    · rw [List.map_map]
      exact (names_declarationsOf h).symm ▸ hnodup
    · rw [← (declares_of_ok hok).name]
      exact List.mem_map_of_mem hD
  declares d hd := (exists_declaration h hd).imp fun _ => And.right
  usage := by
    intro P hP
    rw [after, hP.foldl_merge]
    simp only [initial, hP.empty, false_or, List.mem_map, exists_exists_and_eq_and]
  stable := by
    intro Q hQ
    refine hQ.foldl_merge hQ.empty fun u hu => ?_
    obtain ⟨d, -, rfl⟩ := List.mem_map.mp hu
    exact stable_declare hQ d.widen

/-- A session uses what the parts of its definitions use. -/
theorem Covers.usage_iff (H : s.Covers o t ds) {P : Usage → Prop} (hP : Usage.Additive P) :
    P s.usage ↔ ∃ d ∈ ds, UsesSome o t d.content P := by
  rw [H.usage hP]
  refine exists_congr fun d => and_congr_right fun hd => ?_
  obtain ⟨D, hD⟩ := H.declares d hd
  exact (declares_of_ok hD).usage hP

theorem Covers.referenced (H : s.Covers o t ds) {n : String} :
    n ∈ s.usage.referenced ↔
      ∃ d ∈ ds, (n ∈ d.content.typeNames ∧ t.contains n = false) ∨ n ∈ d.content.interfaces := by
  rw [H.usage (Usage.additive_referenced n)]
  refine exists_congr fun d => and_congr_right fun hd => ?_
  obtain ⟨D, hD⟩ := H.declares d hd
  exact (declares_of_ok hD).referenced n

theorem Covers.cyclic_iff (H : s.Covers o t ds) : s.graph.Cyclic ↔ HasCycle t ds := by
  have hrel : s.graph.DependsOn = StandsAfter t ds := by
    funext a b
    exact propext H.dependsOn
  rw [DependencyGraph.Cyclic, hrel, HasCycle]

/-! ## Unresolved names -/

theorem mem_unresolved {n : String} :
    n ∈ s.unresolved ↔
      n ∈ s.usage.referenced ∧ s.declarations.contains n = false ∧ s.scalars.contains n = false := by
  rw [unresolved, List.mem_mergeSort, List.mem_filter]
  simp

theorem pairwise_unresolved (s : Session) : s.unresolved.Pairwise (· ≤ ·) :=
  pairwise_mergeSort_le _

/-- Unresolved names are refused in strict mode, and else each is reported. -/
theorem checkReferences_eq (s : Session) :
    s.checkReferences =
      if s.options.strict = true ∧ s.unresolved ≠ [] then .error (.unresolved s.unresolved)
      else .ok (s.unresolved.map .undeclared) := by
  have hsorted : s.unresolved.mergeSort = s.unresolved :=
    List.mergeSort_of_pairwise (by simpa using s.pairwise_unresolved)
  rw [checkReferences]
  cases hnames : s.unresolved with
  | nil => rw [if_neg fun h => h.2 rfl, List.map_nil]
  | cons n names =>
    rw [hnames] at hsorted
    cases s.options.strict with
    | true =>
      rw [if_pos ⟨rfl, List.cons_ne_nil n names⟩]
      exact congrArg (Except.error ∘ Failure.unresolved) hsorted
    | false =>
      rw [if_neg fun h => Bool.false_ne_true h.1]
      rfl

theorem Covers.mem_unresolved (H : s.Covers o t ds) {n : String} :
    n ∈ s.unresolved ↔ Unresolved t ds n := by
  have hcontains : s.declarations.contains n = false ↔ n ∉ ds.map (·.name) := by
    rw [← H.contains, Bool.not_eq_true]
  rw [Session.mem_unresolved, H.referenced, hcontains, H.scalars]
  constructor
  · rintro ⟨⟨d, hd, hn⟩, hnew, hscalar⟩
    exact ⟨⟨d, hd, hn.imp_left And.left⟩, hscalar, hnew⟩
  · rintro ⟨⟨d, hd, hn⟩, hscalar, hnew⟩
    exact ⟨⟨d, hd, hn.imp_left fun h => ⟨h, hscalar⟩⟩, hnew, hscalar⟩

/-- The unresolved names of a session can be read off its definitions. -/
theorem Covers.unresolved_eq (H : s.Covers o t ds) : s.unresolved = unresolvedNames t ds := by
  have hnodup : s.unresolved.Nodup := (List.mergeSort_perm _ _).nodup_iff.mpr
      ((H.stable Usage.stable_nodup_referenced).filter _)
  have hperm : s.unresolved.Perm (unresolvedNames t ds) := by
    rw [List.perm_ext_iff_of_nodup hnodup (pairwise_unresolvedNames t ds).nodup]
    intro n
    rw [H.mem_unresolved, mem_unresolvedNames]
  exact hperm.eq_of_pairwise' s.pairwise_unresolved (pairwise_mergeSort_le _)

/-! ## The session of a schema -/

theorem start_eq (o : Options) (custom : List String) (positions : Table String Int) :
    start o custom positions =
      o.overrides.map fun overrides => initial o (.ofCustom custom overrides) positions := by
  rw [start]
  cases o.overrides <;> rfl

end Session

namespace Generator

open Session

variable {o : Options} {schema : Schema}

theorem declareSchema_of_ok {overrides : Overrides} (h : o.overrides = .ok overrides) :
    declareSchema o schema =
      declareAll (initial o (.ofCustom schema.customScalars overrides) schema.positions)
        schema.definitions := by
  rw [declareSchema, start_eq, h]
  rfl

theorem declareSchema_of_error {fault : SettingFault} (h : o.overrides = .error fault) :
    declareSchema o schema = ⟨[], .error (.setting fault)⟩ := by
  rw [declareSchema, start_eq, h]
  rfl

theorem exists_overrides {s : Session} (h : (declareSchema o schema).result = .ok s) :
    ∃ overrides, o.overrides = .ok overrides := by
  cases hoverrides : o.overrides with
  | error fault =>
    rw [declareSchema_of_error hoverrides] at h
    cases h
  | ok overrides => exact ⟨overrides, rfl⟩

theorem result_declareSchema {overrides : Overrides} (h : o.overrides = .ok overrides) :
    (declareSchema o schema).result =
      (declarationsOf o (.ofCustom schema.customScalars overrides) schema.definitions).map
        ((initial o (.ofCustom schema.customScalars overrides) schema.positions).after
          (schema.definitions.map fun d =>
            (o.declare (.ofCustom schema.customScalars overrides) d.widen).usage)) := by
  rw [declareSchema_of_ok h]
  exact result_declareAll _ _

/-- The session of a document holds the definitions of the document. -/
theorem covers_of_declareSchema {doc : Document} {overrides : Overrides} {s : Session}
    (hoverrides : o.overrides = .ok overrides)
    (h : (declareSchema o (Schema.ofDocument doc).1).result = .ok s) :
    s.Covers o (doc.scalarTable overrides) doc.definitions := by
  rw [result_declareSchema hoverrides] at h
  obtain ⟨declared, hdeclared, rfl⟩ := map_eq_ok_iff.mp h
  have hcovers := covers_after (Schema.ofDocument doc).1.positions hdeclared
  rwa [← Schema.definitions_ofDocument]

end Generator

end SchemaModels
