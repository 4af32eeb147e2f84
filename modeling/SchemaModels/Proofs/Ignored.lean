import Mathlib.Logic.Relation
import SchemaModels.Proofs.Positions
import SchemaModels.Proofs.ScalarTable

/-! # Nodes that make no difference

Some nodes of a document take no part in its schema (`Document.Ignored`), and of the scalars it counts
only which names they have. Documents that differ in such nodes, or in the places of their scalars
(`Document.Edit`), come to the same result. They have the same definitions in the same order, if not at
the same positions, and tables that agree; the rest of a run asks for no more. -/

namespace SchemaModels

/-! ## Tables of the same scalars -/

namespace Session

variable {s : Session} {t : ScalarTable}

/-- The session with another table of scalars. -/
def withScalars (s : Session) (t : ScalarTable) : Session :=
  { s with scalars := t, graph := s.graph.withExcluded t.taken }

theorem after_withScalars (h : ∀ n, n ∈ t.taken ↔ n ∈ s.graph.excluded) (used : List Usage)
    (declared : List Declaration) :
    (s.withScalars t).after used declared = (s.after used declared).withScalars t := by
  rw [after, withScalars, DependencyGraph.applyAll_withExcluded h]
  rfl

theorem checkReferences_withScalars (h : ∀ n, t.contains n = s.scalars.contains n) :
    (s.withScalars t).checkReferences = s.checkReferences := by
  have hunresolved : (s.withScalars t).unresolved = s.unresolved := by
    rw [unresolved, unresolved, withScalars]
    simp only [h]
  rw [checkReferences, hunresolved, checkReferences]
  rfl

theorem body_withScalars : (s.withScalars t).body = s.body := by
  have horder : (s.withScalars t).order = s.order :=
    congrArg (Except.mapError Failure.cycle) (DependencyGraph.order_withExcluded t.taken)
  rw [body, blocks, horder, body, blocks]
  rfl

end Session

namespace Generator

open Session

variable {o : Options}

theorem result_assemble_withScalars {s : Session} {t : ScalarTable} (h : t.Agrees s.scalars)
    (comment : String) :
    (assemble (s.withScalars t) comment).result = (assemble s comment).result := by
  rw [result_assemble, checkReferences_withScalars h.contains, body_withScalars, result_assemble]
  rfl

/-- The same scalars in another order lead to the same session but for their table. -/
theorem result_declareSchema_of_scalars {schema schema' : Schema} {overrides : Overrides}
    (hoverrides : o.overrides = .ok overrides)
    (hdefinitions : schema'.definitions = schema.definitions)
    (hscalars : ∀ n, n ∈ schema'.customScalars ↔ n ∈ schema.customScalars) :
    (declareSchema o schema').result =
      (declareSchema o schema).result.map
        (·.withScalars (.ofCustom schema'.customScalars overrides)) := by
  have hagrees : ScalarTable.Agrees (.ofCustom schema'.customScalars overrides)
      (.ofCustom schema.customScalars overrides) := ScalarTable.agrees_ofCustom hscalars
  have hpositions : schema'.positions = schema.positions := by
    rw [Schema.positions, hdefinitions, Schema.positions]
  have hdeclare : ∀ d : Definition Empty,
      o.declare (.ofCustom schema'.customScalars overrides) d.widen =
        o.declare (.ofCustom schema.customScalars overrides) d.widen :=
    fun d => declare_congr hagrees.target? d.widen
  rw [result_declareSchema hoverrides, result_declareSchema hoverrides, hdefinitions, hpositions,
    declarationsOf_eq, declarationsOf_eq]
  simp only [hdeclare]
  cases (schema.definitions.map fun d =>
      o.declare (.ofCustom schema.customScalars overrides) d.widen).mapM' Written.result with
  | error e => rfl
  | ok declared =>
    let start := initial o (.ofCustom schema.customScalars overrides) schema.positions
    exact congrArg Except.ok (after_withScalars (s := start) hagrees.taken _ declared)

/-- Documents with the same definitions in the same order, and the same scalars in any order, come to
the same result. -/
theorem result_eq_of_scalars {doc doc' : Document}
    (hdefinitions : doc.definitions.map Definition.unplaced =
      doc'.definitions.map Definition.unplaced)
    (hscalars : ∀ n, n ∈ doc'.nodes.filterMap Schema.scalarName? ↔
      n ∈ doc.nodes.filterMap Schema.scalarName?)
    (comment : String) :
    (ofDocument o doc' comment).result = (ofDocument o doc comment).result := by
  cases hoverrides : o.overrides with
  | error fault =>
    rw [result_ofDocument, result_ofDocument, declareSchema_of_error hoverrides,
      declareSchema_of_error hoverrides]
  | ok overrides =>
    let schema := (Schema.ofDocument doc).1
    let schema' := (Schema.ofDocument doc').1
    let t := ScalarTable.ofCustom schema.customScalars overrides
    let t' := ScalarTable.ofCustom schema'.customScalars overrides
    -- first the definitions take their new positions, then the scalars their new order
    let placed : Schema := ⟨schema'.definitions, schema.customScalars⟩
    have horder : SameOrder schema.positions placed.positions :=
      Schema.sameOrder_positions (names_of_unplaced hdefinitions)
    rw [← Schema.definitions_ofDocument, ← Schema.definitions_ofDocument] at hdefinitions
    have hplaced : (declareSchema o placed).result =
        (declareSchema o schema).result.map (·.withPositions placed.positions) :=
      result_declareSchema_of_unplaced hdefinitions rfl
    have hmoved : (declareSchema o schema').result =
        (declareSchema o placed).result.map (·.withScalars t') :=
      result_declareSchema_of_scalars hoverrides rfl hscalars
    rw [result_ofDocument, result_ofDocument, hmoved, hplaced]
    cases hs : (declareSchema o schema).result with
    | error e => rfl
    | ok s =>
      have hcovers := covers_of_declareSchema hoverrides hs
      have hagrees : t'.Agrees (s.withPositions placed.positions).scalars :=
        hcovers.scalars ▸ ScalarTable.agrees_ofCustom hscalars
      rw [← positions_of_declareSchema hs] at horder
      exact (result_assemble_withScalars hagrees comment).trans
        (result_assemble_withPositions hcovers.wf horder comment)

end Generator

/-! ## Definitions and their extensions -/

namespace Document

variable {doc doc' : Document} {ds ds' : List (Definition Empty)} {nodes nodes' : List Node}

/-- The content of the last definition of a name, without its extensions. -/
def lastContent? (doc : Document) (name : String) : Option (Content Empty) :=
  (doc.nodes.filterMap definition?).reverse.lookup name

/-- Extensions change the definitions only through the last one of each name. -/
theorem extendedAll_congr (h : ∀ n c, (ds.map Definition.unplaced).reverse.lookup n = some c →
      extensionsOf n c.kind nodes = extensionsOf n c.kind nodes') :
    extendedAll nodes ds = extendedAll nodes' ds := by
  induction ds with
  | nil => rfl
  | cons d ds ih =>
    rw [List.map_cons, List.reverse_cons] at h
    have htail : extendedAll nodes ds = extendedAll nodes' ds := by
      refine ih fun n c hc => h n c ?_
      rw [List.lookup_append, hc]
      rfl
    rw [extendedAll, extendedAll, htail]
    by_cases hlater : d.name ∈ ds.map (·.name)
    · rw [if_pos hlater, if_pos hlater]
    · have hnone : (ds.map Definition.unplaced).reverse.lookup d.name = none := by
        rw [List.lookup_eq_none_iff]
        intro p hp
        obtain ⟨e, he, rfl⟩ := List.mem_map.mp (List.mem_reverse.mp hp)
        have hne : d.name ≠ e.name := fun heq => hlater (List.mem_map.mpr ⟨e, he, heq.symm⟩)
        exact bne_iff_ne.mpr hne
      have hlast : extensionsOf d.name d.content.kind nodes =
          extensionsOf d.name d.content.kind nodes' := by
        refine h d.name d.content ?_
        rw [List.lookup_append, hnone]
        exact List.lookup_cons_self
      rw [if_neg hlater, if_neg hlater, extended, extended, hlast]

/-- Where definitions stand makes no difference to their extensions. -/
theorem unplaced_extendedAll (h : ds.map Definition.unplaced = ds'.map Definition.unplaced) :
    (extendedAll nodes ds).map Definition.unplaced =
      (extendedAll nodes ds').map Definition.unplaced := by
  induction ds generalizing ds' with
  | nil => rw [List.map_eq_nil_iff.mp h.symm]
  | cons d ds ih =>
    cases ds' with
    | nil => cases h
    | cons d' ds' =>
      obtain ⟨hd, hds⟩ := List.cons.inj h
      obtain ⟨hname, hcontent⟩ := Prod.mk.inj hd
      rw [extendedAll, extendedAll, List.map_cons, List.map_cons, ih hds, names_of_unplaced hds,
        hname]
      congr 1
      split
      · exact hd
      · rw [Definition.unplaced, extended, Definition.unplaced, extended, hname, hcontent]

theorem unplaced_definitions_congr
    (hdefinitions : doc.nodes.filterMap definition? = doc'.nodes.filterMap definition?)
    (hextensions : ∀ n c, doc.lastContent? n = some c →
      extensionsOf n c.kind doc.nodes = extensionsOf n c.kind doc'.nodes) :
    doc.definitions.map Definition.unplaced = doc'.definitions.map Definition.unplaced := by
  have hunplaced : (Schema.definitionsFrom 0 doc.nodes).map Definition.unplaced =
      (Schema.definitionsFrom 0 doc'.nodes).map Definition.unplaced := by
    rw [unplaced_definitionsFrom, unplaced_definitionsFrom, hdefinitions]
  rw [definitions, definitions, ← unplaced_extendedAll hunplaced]
  refine congrArg _ (extendedAll_congr fun n c hc => hextensions n c ?_)
  rwa [unplaced_definitionsFrom] at hc

/-! ## Edits that make no difference -/

/-- A node that takes no part in the schema of a document. An extension takes none if its name is not
declared, or its last definition is of another kind. -/
inductive Ignored (doc : Document) : Node → Prop
  | skipped (kind : SkippedKind) : Ignored doc (.skipped kind)
  | scalarExtension (name : String) : Ignored doc (.scalarExtension name)
  | extension (name : String) (part : Content Empty)
    (h : ∀ c, doc.lastContent? name = some c → c.kind ≠ part.kind) :
    Ignored doc (.extension name part)

/-- One edit of a document: a node that takes no part in the schema is inserted, or a scalar is moved to
a later place. -/
inductive Edit : Document → Document → Prop
  | insert (before after : List Node) (node : Node) (h : Ignored ⟨before ++ after⟩ node) :
    Edit ⟨before ++ after⟩ ⟨before ++ node :: after⟩
  | moveScalar (before between after : List Node) (name : String) :
    Edit ⟨before ++ .scalar name :: (between ++ after)⟩
      ⟨before ++ (between ++ .scalar name :: after)⟩

namespace Ignored

variable {node : Node}

theorem definition?_eq_none (h : Ignored doc node) : definition? node = none := by
  cases h <;> rfl

theorem scalarName?_eq_none (h : Ignored doc node) : Schema.scalarName? node = none := by
  cases h <;> rfl

theorem extensionsOf_eq_nil (h : Ignored doc node) {n : String} {c : Content Empty}
    (hc : doc.lastContent? n = some c) : extensionsOf n c.kind [node] = [] := by
  cases h with
  | skipped kind => rfl
  | scalarExtension name => rfl
  | extension name part hother =>
    have hne : ¬(name = n ∧ part.kind = c.kind) := by
      rintro ⟨rfl, hkind⟩
      exact hother c hc hkind.symm
    simpa [extensionsOf] using hne

end Ignored

theorem extensionsOf_append (n : String) (kind : Kind) (xs ys : List Node) :
    extensionsOf n kind (xs ++ ys) = extensionsOf n kind xs ++ extensionsOf n kind ys :=
  List.filterMap_append

theorem extensionsOf_cons (n : String) (kind : Kind) (node : Node) (nodes : List Node) :
    extensionsOf n kind (node :: nodes) = extensionsOf n kind [node] ++ extensionsOf n kind nodes :=
  extensionsOf_append n kind [node] nodes

/-- An edit keeps the definitions, with their extensions, and the scalars. -/
theorem Edit.unplaced_definitions_eq (h : Edit doc doc') :
    doc.definitions.map Definition.unplaced = doc'.definitions.map Definition.unplaced := by
  cases h with
  | insert before after node h =>
    refine unplaced_definitions_congr ?_ fun n c hc => ?_
    · rw [List.filterMap_append, List.filterMap_append, List.filterMap_cons, h.definition?_eq_none]
    · rw [extensionsOf_append, extensionsOf_append, extensionsOf_cons, h.extensionsOf_eq_nil hc,
        List.nil_append]
  | moveScalar before between after name =>
    refine unplaced_definitions_congr ?_ fun n c _ => ?_
    · simp only [List.filterMap_append, List.filterMap_cons, definition?]
    · have hscalar : ∀ nodes, extensionsOf n c.kind (.scalar name :: nodes) =
          extensionsOf n c.kind nodes := fun _ => rfl
      simp only [extensionsOf_append, hscalar]

theorem Edit.mem_scalarNames_iff (h : Edit doc doc') (n : String) :
    n ∈ doc'.nodes.filterMap Schema.scalarName? ↔ n ∈ doc.nodes.filterMap Schema.scalarName? := by
  cases h with
  | insert before after node h =>
    rw [List.filterMap_append, List.filterMap_append, List.filterMap_cons, h.scalarName?_eq_none]
  | moveScalar before between after name =>
    simp only [List.filterMap_append, List.filterMap_cons, Schema.scalarName?, List.mem_append,
      List.mem_cons]
    grind

end Document

namespace Generator

variable {doc doc' : Document}

/-- Nodes that take no part in the schema can be inserted and removed at any places, and scalars moved to
any others, without a difference to the module, or to the failure if there is none. -/
theorem result_of_edits (o : Options) (h : Relation.EqvGen Document.Edit doc doc') (comment : String) :
    (ofDocument o doc' comment).result = (ofDocument o doc comment).result := by
  induction h with
  | rel doc doc' hedit =>
    exact result_eq_of_scalars hedit.unplaced_definitions_eq hedit.mem_scalarNames_iff comment
  | refl doc => rfl
  | symm doc doc' _ ih => exact ih.symm
  | trans doc doc' doc'' _ _ ih ih' => exact ih'.trans ih

/-- A scalar in another place, and nodes of four kinds between the definitions; and a cycle that is found
in the same way behind a node that takes no part. -/
theorem result_of_edits_scattered :
    let cat := Document.Node.definition "Cat" (.object [⟨"name", .named "Tag"⟩] ["Animal"])
    let animal := Document.Node.definition "Animal" (.interface [])
    let tabby := Document.Node.extension "Cat" (.enum ["TABBY"])
    let dog := Document.Node.extension "Dog" (.object [] ["Animal"])
    let doc : Document := ⟨[cat, animal, .scalar "Tag"]⟩
    let doc' : Document := ⟨[.scalar "Tag", .skipped .operation, cat, tabby, animal, dog,
      .scalarExtension "Tag"]⟩
    let own := Document.Node.definition "Own" (.object [] ["Own"])
    Relation.EqvGen Document.Edit doc doc' ∧
      (∃ m, (ofDocument {} doc "").result = .ok m ∧ (ofDocument {} doc' "").result = .ok m) ∧
      Relation.EqvGen Document.Edit ⟨[own]⟩ ⟨[.skipped .schema, own]⟩ ∧
      (ofDocument {} ⟨[.skipped .schema, own]⟩ "").result = .error (.cycle ["Own", "Own"]) := by
  intro cat animal tabby dog doc doc' own
  have htabby : ∀ c, Document.lastContent? ⟨[.scalar "Tag", .skipped .operation, cat, animal]⟩ "Cat" =
      some c → c.kind ≠ .enum := by
    intro c hc
    have hcat : Document.lastContent? ⟨[.scalar "Tag", .skipped .operation, cat, animal]⟩ "Cat" =
        some (.object [⟨"name", .named "Tag"⟩] ["Animal"]) := by decide +kernel
    cases hcat.symm.trans hc
    decide
  have hdog : ∀ c, Document.lastContent? ⟨[.scalar "Tag", .skipped .operation, cat, tabby, animal]⟩
      "Dog" = some c → c.kind ≠ .object := by
    intro c hc
    have hnone : Document.lastContent? ⟨[.scalar "Tag", .skipped .operation, cat, tabby, animal]⟩
        "Dog" = none := by decide +kernel
    cases hnone.symm.trans hc
  have hedits : Relation.EqvGen Document.Edit doc doc' := by
    refine .trans _ _ _ (.symm _ _ (.rel _ _ (.moveScalar [] [cat, animal] [] "Tag"))) ?_
    refine .trans _ _ _ (.rel _ _ (.insert [.scalar "Tag"] [cat, animal] _ (.skipped .operation))) ?_
    refine .trans _ _ _ (.rel _ _ (.insert [.scalar "Tag", .skipped .operation, cat] [animal] _
      (.extension "Cat" (.enum ["TABBY"]) htabby))) ?_
    refine .trans _ _ _ (.rel _ _ (.insert [.scalar "Tag", .skipped .operation, cat, tabby, animal] []
      _ (.extension "Dog" (.object [] ["Animal"]) hdog))) ?_
    exact .rel _ _ (.insert [.scalar "Tag", .skipped .operation, cat, tabby, animal, dog] []
      _ (.scalarExtension "Tag"))
  have hown : Relation.EqvGen Document.Edit ⟨[own]⟩ ⟨[.skipped .schema, own]⟩ :=
    .rel _ _ (.insert [] [own] _ (.skipped .schema))
  have ho : Options.Usable {} {} ["copy"] := ⟨rfl, rfl⟩
  have hrank : ¬HasCycle (doc.scalarTable {}) doc.definitions :=
    not_hasCycle_of_rank (fun n => if n = "Animal" then 0 else 1) (by decide +kernel)
  obtain ⟨m, hm⟩ :=
    (result_of_resolved ho (by decide +kernel) "" fun h => Bool.false_ne_true h.1).2 hrank
  have hcycle : (ofDocument {} ⟨[own]⟩ "").result = .error (.cycle ["Own", "Own"]) := by
    decide +kernel
  exact ⟨hedits, ⟨m, hm, (result_of_edits {} hedits "").trans hm⟩, hown,
    (result_of_edits {} hown "").trans hcycle⟩

end Generator

end SchemaModels
