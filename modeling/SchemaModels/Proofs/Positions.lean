import SchemaModels.Proofs.Graph.Renumbering
import SchemaModels.Proofs.Outcome

/-! # Where definitions stand

A run uses the positions of definitions for nothing but ranks, and these ask only which of two
definitions stands first. So documents with the same definitions in the same order come to the same
result, whatever else stands between them (`Generator.result_eq_of_unplaced`). No two names of a document
are at the same position, so it makes no difference either how sets of names are listed
(`Generator.sort_graph_of_declareSchema`). -/

namespace SchemaModels

/-- A definition without its position. -/
def Definition.unplaced {γ : Type} (d : Definition γ) : String × Content γ := (d.name, d.content)

variable {o : Options} {ds ds' : List (Definition Empty)}

theorem names_of_unplaced (h : ds.map Definition.unplaced = ds'.map Definition.unplaced) :
    ds.map (·.name) = ds'.map (·.name) := by
  have hfst := congrArg (List.map Prod.fst) h
  rwa [List.map_map, List.map_map] at hfst

/-! ## Definitions without positions -/

namespace Document

variable {nodes : List Node}

/-- The definition that a node is, if it is one. -/
def definition? : Node → Option (String × Content Empty)
  | .definition name content => some (name, content)
  | _ => none

/-- A definition with its extensions among some nodes. -/
def completed (nodes : List Node) (d : String × Content Empty) : String × Content Empty :=
  (d.1, contentWith d.2 (extensionsOf d.1 d.2.kind nodes))

theorem unplaced_definitionsFrom (p : Nat) (nodes : List Node) :
    (Schema.definitionsFrom p nodes).map Definition.unplaced = nodes.filterMap definition? := by
  induction nodes generalizing p with
  | nil => rfl
  | cons node nodes ih =>
    cases node with
    | definition name content => exact congrArg (List.cons _) (ih (p + 1))
    | _ => exact ih (p + 1)

theorem names_definitions (doc : Document) :
    doc.definitions.map (·.name) = (doc.nodes.filterMap definition?).map (·.1) := by
  have hnames : ∀ ds : List (Definition Empty),
      (extendedAll doc.nodes ds).map (·.name) = ds.map (·.name) := by
    intro ds
    induction ds with
    | nil => rfl
    | cons d ds ih =>
      rw [extendedAll, List.map_cons, List.map_cons, ih]
      split <;> rfl
  rw [definitions, hnames, ← unplaced_definitionsFrom 0, List.map_map]
  rfl

/-- If all names are different then every definition has its extensions. -/
theorem extendedAll_of_nodup (h : (ds.map (·.name)).Nodup) :
    extendedAll nodes ds = ds.map (extended nodes) := by
  induction ds with
  | nil => rfl
  | cons d ds ih =>
    rw [List.map_cons, List.nodup_cons] at h
    rw [extendedAll, if_neg h.1, ih h.2, List.map_cons]

theorem unplaced_definitions {doc : Document} (h : (doc.definitions.map (·.name)).Nodup) :
    doc.definitions.map Definition.unplaced =
      (doc.nodes.filterMap definition?).map (completed doc.nodes) := by
  rw [names_definitions, ← unplaced_definitionsFrom 0, List.map_map] at h
  rw [definitions, extendedAll_of_nodup h, ← unplaced_definitionsFrom 0, List.map_map, List.map_map]
  rfl

end Document

/-! ## Increasing positions -/

namespace Schema

theorem le_position {p : Nat} {nodes : List Document.Node} {d : Definition Empty}
    (h : d ∈ definitionsFrom p nodes) : p ≤ d.position := by
  induction nodes generalizing p with
  | nil => cases h
  | cons node nodes ih =>
    cases node with
    | definition name content =>
      rcases List.mem_cons.mp h with rfl | h
      · exact Nat.le_refl p
      · have := ih h
        omega
    | _ =>
      have := ih h
      omega

theorem pairwise_definitionsFrom (p : Nat) (nodes : List Document.Node) :
    (definitionsFrom p nodes).Pairwise (·.position < ·.position) := by
  induction nodes generalizing p with
  | nil => exact .nil
  | cons node nodes ih =>
    cases node with
    | definition name content =>
      refine List.pairwise_cons.mpr ⟨fun d hd => ?_, ih (p + 1)⟩
      exact le_position hd
    | _ => exact ih (p + 1)

end Schema

theorem Document.positions_extendedAll (nodes : List Node) :
    (extendedAll nodes ds).map (·.position) = ds.map (·.position) := by
  induction ds with
  | nil => rfl
  | cons d ds ih =>
    rw [extendedAll, List.map_cons, List.map_cons, ih]
    split <;> rfl

theorem Document.pairwise_position (doc : Document) :
    doc.definitions.Pairwise (·.position < ·.position) := by
  have hnodes : ((Schema.definitionsFrom 0 doc.nodes).map (·.position)).Pairwise (· < ·) :=
    List.pairwise_map.mpr (Schema.pairwise_definitionsFrom 0 doc.nodes)
  rw [← positions_extendedAll doc.nodes] at hnodes
  exact List.pairwise_map.mp hnodes

theorem Schema.sameOrder_positions {doc doc' : Document}
    (h : doc.definitions.map (·.name) = doc'.definitions.map (·.name)) :
    SameOrder (ofDocument doc).1.positions (ofDocument doc').1.positions := by
  rw [positions, positions, definitions_ofDocument, definitions_ofDocument]
  refine SameOrder.empty.insertAll ?_ ?_ ?_ nofun nofun
  · rwa [List.map_map, List.map_map]
  · exact List.pairwise_map.mpr (doc.pairwise_position.imp Int.ofNat_lt.mpr)
  · exact List.pairwise_map.mpr (doc'.pairwise_position.imp Int.ofNat_lt.mpr)

/-- Names that are defined at different places have different positions. -/
theorem Schema.eq_of_position {doc : Document} {a b : String} {p : Int}
    (ha : (ofDocument doc).1.positions.get? a = some p)
    (hb : (ofDocument doc).1.positions.get? b = some p) : a = b := by
  have hdefined {n : String} (h : (ofDocument doc).1.positions.get? n = some p) :
      ∃ d ∈ doc.definitions, d.name = n ∧ (d.position : Int) = p := by
    rw [positions, definitions_ofDocument] at h
    have hmem := (Table.mem_of_get?_insertAll h).resolve_right (Option.not_mem_none p)
    obtain ⟨d, hd, heq⟩ := List.mem_map.mp hmem
    obtain ⟨hname, hposition⟩ := Prod.mk.inj heq
    exact ⟨d, hd, hname, hposition⟩
  obtain ⟨d, hd, rfl, hp⟩ := hdefined ha
  obtain ⟨d', hd', rfl, hp'⟩ := hdefined hb
  have hnodup : (doc.definitions.map (·.position)).Nodup :=
    List.pairwise_map.mpr (doc.pairwise_position.imp Nat.ne_of_lt)
  rw [List.inj_on_of_nodup_map hnodup hd hd' (Int.ofNat.inj (hp.trans hp'.symm))]

/-! ## Declarations -/

section

variable (t : ScalarTable)

/-- The position of a definition makes no difference to its declaration. -/
theorem map_declare_of_unplaced (h : ds.map Definition.unplaced = ds'.map Definition.unplaced) :
    (ds.map fun d => o.declare t d.widen) = ds'.map fun d => o.declare t d.widen := by
  have hmap := congrArg (List.map fun p => o.declare t (Definition.widen ⟨p.1, 0, p.2⟩)) h
  rwa [List.map_map, List.map_map] at hmap

theorem declarationsOf_eq (ds : List (Definition Empty)) :
    declarationsOf o t ds = (ds.map fun d => o.declare t d.widen).mapM' Written.result := by
  induction ds with
  | nil => rfl
  | cons d ds ih =>
    rw [declarationsOf, List.mapM'_cons, ← declarationsOf, ih]
    rfl

end

/-! ## Sessions -/

namespace Session

variable {s : Session} {q : Table String Int}

/-- The session with other positions. -/
def withPositions (s : Session) (positions : Table String Int) : Session :=
  { s with graph := s.graph.withPositions positions }

theorem after_withPositions (used : List Usage) (declared : List Declaration) :
    (s.withPositions q).after used declared = (s.after used declared).withPositions q := by
  rw [after, withPositions, DependencyGraph.applyAll_withPositions]
  rfl

theorem positions_after (used : List Usage) (declared : List Declaration) :
    (s.after used declared).graph.positions = s.graph.positions := by
  have hself : s.withPositions s.graph.positions = s := rfl
  have hafter := after_withPositions (s := s) (q := s.graph.positions) used declared
  rw [hself] at hafter
  rw [hafter]
  rfl

theorem body_withPositions (hwf : s.graph.WF) (h : SameOrder s.graph.positions q) :
    (s.withPositions q).body = s.body := by
  have horder : (s.withPositions q).order = s.order :=
    congrArg (Except.mapError Failure.cycle) (DependencyGraph.order_withPositions hwf h)
  rw [body, blocks, horder, body, blocks]
  rfl

end Session

namespace Generator

open Session

theorem result_assemble_withPositions {s : Session} {q : Table String Int}
    (hwf : s.graph.WF) (h : SameOrder s.graph.positions q) (comment : String) :
    (assemble (s.withPositions q) comment).result = (assemble s comment).result := by
  rw [result_assemble, body_withPositions hwf h, result_assemble]
  rfl

theorem positions_of_declareSchema {schema : Schema} {s : Session}
    (h : (declareSchema o schema).result = .ok s) : s.graph.positions = schema.positions := by
  obtain ⟨overrides, hoverrides⟩ := exists_overrides h
  rw [result_declareSchema hoverrides] at h
  obtain ⟨declared, -, rfl⟩ := map_eq_ok_iff.mp h
  exact positions_after _ _

/-- The order of a document's declarations does not depend on how sets are listed, and neither does the
cycle that stands in its place: no two names are at the same position. -/
theorem sort_graph_of_declareSchema {doc : Document} {s : Session}
    (h : (declareSchema o (Schema.ofDocument doc).1).result = .ok s)
    (listing : DependencyGraph.Listing) : s.graph.sort listing = some s.graph.order := by
  obtain ⟨overrides, hoverrides⟩ := exists_overrides h
  refine DependencyGraph.sort_eq_order (covers_of_declareSchema hoverrides h).wf ?_ listing
  intro a b p ha hb
  rw [positions_of_declareSchema h] at ha hb
  exact Schema.eq_of_position ha hb

/-- Schemas with the same definitions, elsewhere, lead to the same session but for the positions. -/
theorem result_declareSchema_of_unplaced {schema schema' : Schema}
    (hdefinitions : schema.definitions.map Definition.unplaced =
      schema'.definitions.map Definition.unplaced)
    (hscalars : schema.customScalars = schema'.customScalars) :
    (declareSchema o schema').result =
      (declareSchema o schema).result.map (·.withPositions schema'.positions) := by
  cases hoverrides : o.overrides with
  | error fault =>
    rw [declareSchema_of_error hoverrides, declareSchema_of_error hoverrides]
    rfl
  | ok overrides =>
    let t : ScalarTable := .ofCustom schema.customScalars overrides
    have hdeclare := map_declare_of_unplaced (o := o) t hdefinitions
    have hused := congrArg (List.map Written.usage) hdeclare
    rw [List.map_map, List.map_map] at hused
    rw [result_declareSchema hoverrides, result_declareSchema hoverrides, ← hscalars,
      declarationsOf_eq, declarationsOf_eq, ← hdeclare]
    cases (schema.definitions.map fun d => o.declare t d.widen).mapM' Written.result with
    | error e => rfl
    | ok declared =>
      refine congrArg Except.ok (Eq.trans ?_ (after_withPositions _ declared))
      exact congrArg (fun used => (initial o t schema'.positions).after used declared) hused.symm

/-- Documents with the same definitions and scalars in the same order come to the same result. -/
theorem result_eq_of_unplaced {doc doc' : Document}
    (hdefinitions : doc.definitions.map Definition.unplaced =
      doc'.definitions.map Definition.unplaced)
    (hscalars : doc.nodes.filterMap Schema.scalarName? = doc'.nodes.filterMap Schema.scalarName?)
    (comment : String) :
    (ofDocument o doc' comment).result = (ofDocument o doc comment).result := by
  have hpositions := Schema.sameOrder_positions (names_of_unplaced hdefinitions)
  rw [← Schema.definitions_ofDocument, ← Schema.definitions_ofDocument] at hdefinitions
  rw [result_ofDocument, result_ofDocument,
    result_declareSchema_of_unplaced hdefinitions hscalars]
  cases hs : (declareSchema o (Schema.ofDocument doc).1).result with
  | error e => rfl
  | ok s =>
    obtain ⟨overrides, hoverrides⟩ := exists_overrides hs
    have hcovers := covers_of_declareSchema hoverrides hs
    rw [← positions_of_declareSchema hs] at hpositions
    exact result_assemble_withPositions hcovers.wf hpositions comment

end Generator

end SchemaModels
