import SchemaModels.Proofs.Declaration
import SchemaModels.Session

/-! # Calls on a session

A session is used by calls that resolve types, declare definitions and add declarations. Whatever a call
comes to, the session only grows (`Session.Grows`). A call that fails changes neither the graph nor the
declarations. -/

namespace SchemaModels

/-! ## Growth -/

/-- A graph that holds all that another one does. Nodes keep their places. -/
structure DependencyGraph.Grows (g g' : DependencyGraph) : Prop where
  excluded : g'.excluded = g.excluded
  positions : g'.positions = g.positions
  nodes : g.nodes <+: g'.nodes
  edges : g.edges <+: g'.edges

namespace DependencyGraph.Grows

variable {g g' g'' : DependencyGraph}

theorem refl (g : DependencyGraph) : g.Grows g := ⟨rfl, rfl, List.prefix_refl _, List.prefix_refl _⟩

theorem trans (h : g.Grows g') (h' : g'.Grows g'') : g.Grows g'' :=
  ⟨h'.excluded.trans h.excluded, h'.positions.trans h.positions, h.nodes.trans h'.nodes,
    h.edges.trans h'.edges⟩

theorem addNode (g : DependencyGraph) (n : String) : g.Grows (g.addNode n) := by
  unfold DependencyGraph.addNode
  split
  · exact ⟨rfl, rfl, Distinct.prefix_add _ _, List.prefix_refl _⟩
  · exact refl g

theorem addEdge (g : DependencyGraph) (a b : String) : g.Grows (g.addEdge a b) := by
  have hnodes : g.Grows ((g.addNode a).addNode b) := (addNode g a).trans (addNode _ b)
  unfold DependencyGraph.addEdge
  dsimp only
  split
  · refine hnodes.trans ⟨rfl, rfl, List.prefix_refl _, Distinct.prefix_add _ _⟩
  · exact hnodes

theorem applyAll (g : DependencyGraph) (calls : List Call) : g.Grows (g.applyAll calls) := by
  induction calls generalizing g with
  | nil => exact refl g
  | cons c calls ih =>
    have hstep : g.Grows (g.apply c) := by
      cases c with
      | node n => exact addNode g n
      | edge a b => exact addEdge g a b
    exact hstep.trans (ih (g.apply c))

end DependencyGraph.Grows

namespace Session

variable {s s' s'' : Session}

/-- A session that holds all that another one does, with the same options and scalars. -/
structure Grows (s s' : Session) : Prop where
  options : s'.options = s.options
  scalars : s'.scalars = s.scalars
  features : s.usage.imports.features <+: s'.usage.imports.features
  names : s.usage.imports.names <+: s'.usage.imports.names
  referenced : s.usage.referenced <+: s'.usage.referenced
  graph : s.graph.Grows s'.graph
  declared : s.declarations.keys ⊆ s'.declarations.keys

theorem Grows.refl (s : Session) : s.Grows s :=
  ⟨rfl, rfl, List.prefix_refl _, List.prefix_refl _, List.prefix_refl _, .refl _, List.Subset.refl _⟩

theorem Grows.trans (h : s.Grows s') (h' : s'.Grows s'') : s.Grows s'' :=
  ⟨h'.options.trans h.options, h'.scalars.trans h.scalars, h.features.trans h'.features,
    h.names.trans h'.names, h.referenced.trans h'.referenced, h.graph.trans h'.graph,
    List.Subset.trans h.declared h'.declared⟩

theorem grows_record {α : Type} (s : Session) (w : Written α) : s.Grows (s.record w).1 :=
  ⟨rfl, rfl, List.prefix_append _ _, List.prefix_append _ _, List.prefix_append _ _,
    .applyAll s.graph w.calls, List.Subset.refl _⟩

theorem grows_addDeclaration (s : Session) (D : Declaration) : s.Grows (s.addDeclaration D) where
  options := rfl
  scalars := rfl
  features := List.prefix_refl _
  names := List.prefix_refl _
  referenced := List.prefix_refl _
  graph := .refl _
  declared _ h := Table.mem_keys_insert.mpr (.inl h)

/-! ## Failures -/

/-- A type that cannot be resolved leaves no trace. -/
theorem resolveType_of_error {ref : TypeRef Gap} {e : Failure} (h : (s.resolveType ref).2 = .error e) :
    (s.resolveType ref).1 = s := by
  rw [resolveType, record, ScalarTable.usage_annotate_of_error h, ScalarTable.calls_annotate,
    Usage.merge_empty]
  rfl

/-- A definition that cannot be declared adds nothing to the graph. -/
theorem graph_declare_of_error {d : Definition Gap} {e : Failure} (h : (s.declare d).2 = .error e) :
    (s.declare d).1.graph = s.graph := by
  rw [declare, graph_record, calls_declare_of_error h]
  rfl

/-! ## Sequences of calls -/

/-- A call on a session: a type is resolved, a definition is declared, or a declaration is added. -/
inductive Action
  | resolveType (ref : TypeRef Gap)
  | declare (d : Definition Gap)
  | add (D : Declaration)

/-- The session after a call, whatever the call came to. -/
def perform (s : Session) : Action → Session
  | .resolveType ref => (s.resolveType ref).1
  | .declare d => (s.declare d).1
  | .add D => s.addDeclaration D

def performAll (s : Session) (actions : List Action) : Session := actions.foldl perform s

theorem grows_perform (s : Session) (a : Action) : s.Grows (s.perform a) := by
  cases a with
  | resolveType ref => exact s.grows_record _
  | declare d => exact s.grows_record _
  | add D => exact s.grows_addDeclaration D

theorem grows_performAll (s : Session) (actions : List Action) : s.Grows (s.performAll actions) := by
  induction actions generalizing s with
  | nil => exact .refl s
  | cons a actions ih => exact (s.grows_perform a).trans (ih (s.perform a))

/-- A call that fails leaves the order of the declarations as it was. A type that cannot be resolved
leaves no trace at all; a definition that cannot be declared leaves the graph and the declarations. What
a call comes to does not matter for what the session had before: it has all of it after the call. -/
theorem failed_call_keeps_order (s : Session) :
    (∀ ref e, (s.resolveType ref).2 = .error e → (s.resolveType ref).1 = s) ∧
      (∀ d e, (s.declare d).2 = .error e →
        (s.declare d).1.graph = s.graph ∧ (s.declare d).1.declarations = s.declarations) ∧
      (∀ a, s.Grows (s.perform a)) ∧ ∀ actions, s.Grows (s.performAll actions) :=
  ⟨fun _ _ => resolveType_of_error, fun _ _ he => ⟨graph_declare_of_error he, rfl⟩, s.grows_perform,
    s.grows_performAll⟩

/-- A field with the name of a keyword, after one that uses a type, and a list of nothing. -/
theorem failed_call_keeps_order_keyword :
    let cat : Definition Gap :=
      ⟨"Cat", 0, .object [⟨"name", .named "Tag"⟩, ⟨"class", .named "Int"⟩] ["Animal"]⟩
    let gap : TypeRef Gap := .list (.other .absent)
    ∃ s₀ : Session, start {} [] ∅ = .ok s₀ ∧
      let s := s₀.performAll [.declare ⟨"Pet", 0, .union [.named "Cat"]⟩, .resolveType (.named "ID")]
      s.graph.nodes = ["Pet", "Cat"] ∧
        (s.declare cat).2 = .error (.invalidIdentifier "Cat" "class") ∧
        (s.declare cat).1.graph = s.graph ∧ (s.declare cat).1.usage.referenced = ["Cat", "Animal", "Tag"] ∧
        (s.resolveType gap).2 = .error (.unsupportedType .absent) ∧ (s.resolveType gap).1 = s := by
  intro cat gap
  refine ⟨_, rfl, ?_⟩
  intro s
  have hcat : (s.declare cat).2 = .error (.invalidIdentifier "Cat" "class") := by decide +kernel
  obtain ⟨htype, hdefinition, -, -⟩ := failed_call_keeps_order s
  refine ⟨by decide +kernel, hcat, (hdefinition cat _ hcat).1, by decide +kernel, rfl, htype gap _ rfl⟩

end Session

end SchemaModels
