import SchemaModels.Proofs.Calls
import SchemaModels.Proofs.Session

/-! # What the graph knows of the declarations

The names that a declaration has to stand after are kept twice: in the declaration that a call returns, and
as edges of the graph. The two are written down by separate steps, but both say the same, whatever is
declared and however often, and whether calls between them fail (`Session.graph_performAll`). Names that
belong to scalar types are left out by the graph. -/

namespace SchemaModels.Session

variable {s : Session}

/-- The declaration that a call returns, if there is one. -/
def returnedBy (s : Session) : Action → List Declaration
  | .declare d => (s.declare d).2.toOption.toList
  | .resolveType _ | .add _ => []

/-- The declarations that a sequence of calls returns, in order. -/
def returned (s : Session) : List Action → List Declaration
  | [] => []
  | a :: actions => s.returnedBy a ++ (s.perform a).returned actions

/-- A call adds to the graph what the declaration asks for that it returns. -/
theorem graph_perform (s : Session) (a : Action) :
    (s.perform a).graph = s.graph.applyAll (entries (s.returnedBy a)) := by
  cases a with
  | resolveType ref => exact congrArg s.graph.applyAll (s.scalars.calls_annotate ref)
  | add D => rfl
  | declare d =>
    rw [perform, returnedBy]
    cases h : (s.declare d).2 with
    | error e => exact graph_declare_of_error h
    | ok D =>
      rw [declare_of_ok h]
      exact congrArg s.graph.applyAll (List.append_nil _).symm

/-- Calls add to the graph what the declarations ask for that they return, and nothing else. -/
theorem graph_performAll (s : Session) (actions : List Action) :
    (s.performAll actions).graph = s.graph.applyAll (entries (s.returned actions)) := by
  induction actions generalizing s with
  | nil => rfl
  | cons a actions ih =>
    have hrest := ih (s.perform a)
    rw [graph_perform, DependencyGraph.applyAll, DependencyGraph.applyAll, ← List.foldl_append] at hrest
    rw [returned, entries, List.flatMap_append]
    exact hrest

theorem graph_of_start {o : Options} {custom : List String} {positions : Table String Int}
    (h : start o custom positions = .ok s) :
    s.graph = { excluded := s.scalars.taken, positions } := by
  rw [start_eq] at h
  obtain ⟨overrides, -, rfl⟩ := map_eq_ok_iff.mp h
  rfl

/-- The graph of a session knows exactly what the declarations that were returned ask for, whatever calls
were made: their names and those that they depend on are its nodes, and a name depends on all that the
declarations of this name depend on. Names that belong to scalar types are left out. -/
theorem graph_of_returned {o : Options} {custom : List String} {positions : Table String Int}
    {s₀ : Session} (h : start o custom positions = .ok s₀) (actions : List Action) :
    let s := s₀.performAll actions
    let excluded := s₀.scalars.taken
    (∀ n, n ∈ s.graph.nodes ↔
        (∃ D ∈ s₀.returned actions, n = D.name ∨ n ∈ D.dependsOn) ∧ n ∉ excluded) ∧
      (∀ n, n ∉ excluded → ∀ b, b ∈ s.graph.dependencies n ↔
        (∃ D ∈ s₀.returned actions, D.name = n ∧ b ∈ D.dependsOn) ∧ b ∉ excluded) ∧
      ∀ n, n ∈ excluded → n ∉ s.graph.nodes ∧ s.graph.dependencies n = [] := by
  intro s excluded
  have hgraph : s.graph =
      DependencyGraph.applyAll { excluded, positions } (entries (s₀.returned actions)) := by
    rw [← graph_of_start h]
    exact s₀.graph_performAll actions
  have hnodes (n : String) : n ∈ s.graph.nodes ↔
      (∃ D ∈ s₀.returned actions, n = D.name ∨ n ∈ D.dependsOn) ∧ n ∉ excluded := by
    rw [hgraph, DependencyGraph.mem_nodes_applyAll, exists_mem_entries]
    exact or_iff_right List.not_mem_nil
  have hedges (a b : String) : b ∈ s.graph.dependencies a ↔
      (∃ D ∈ s₀.returned actions, D.name = a ∧ b ∈ D.dependsOn) ∧ a ∉ excluded ∧ b ∉ excluded := by
    rw [DependencyGraph.mem_dependencies, hgraph, DependencyGraph.mem_edges_applyAll, edge_mem_entries]
    exact or_iff_right List.not_mem_nil
  refine ⟨hnodes, fun n hn b => ?_, fun n hn => ⟨fun hnode => ((hnodes n).mp hnode).2 hn, ?_⟩⟩
  · rw [hedges]
    exact and_congr_right' (and_iff_right hn)
  · exact List.eq_nil_iff_forall_not_mem.mpr fun b hb => ((hedges n b).mp hb).2.1 hn

/-- A name that is declared twice, a definition that cannot be declared, a member whose name belongs to a
scalar type, and a definition that has such a name itself. -/
theorem graph_of_returned_twice :
    let o : Options := { overrides := .ok { named := .ofList [("Date", "datetime.date")] } }
    let actions : List Action := [
      .declare ⟨"Pet", 0, .union [.nonNull (.named "Cat"), .list (.named "Dog"), .named "Date",
        .named "date"]⟩,
      .declare ⟨"Cat", 1, .object [⟨"class", .named "Int"⟩] ["Animal"]⟩,
      .declare ⟨"Pet", 2, .object [] ["Named"]⟩,
      .declare ⟨"Any", 3, .object [] ["Named"]⟩]
    ∃ s₀, start o [] ∅ = .ok s₀ ∧
      ((s₀.returned actions).map fun D => (D.name, D.dependsOn)) =
        [("Pet", ["Cat", "Dog", "date"]), ("Pet", ["Named"]), ("Any", ["Named"])] ∧
      let g := (s₀.performAll actions).graph
      "Cat" ∈ g.nodes ∧ "Dog" ∈ g.dependencies "Pet" ∧ "Named" ∈ g.dependencies "Pet" ∧
        "date" ∉ g.nodes ∧ "date" ∉ g.dependencies "Pet" ∧
        "Any" ∉ g.nodes ∧ g.dependencies "Any" = [] := by
  intro o actions
  let s₀ := initial o (.ofCustom [] { named := .ofList [("Date", "datetime.date")] }) ∅
  have hstart : start o [] ∅ = .ok s₀ := rfl
  have hpet : "Pet" ∉ s₀.scalars.taken := by decide +kernel
  have hdate : "date" ∈ s₀.scalars.taken := by decide +kernel
  obtain ⟨hnodes, hdependencies, hexcluded⟩ := graph_of_returned hstart actions
  refine ⟨s₀, hstart, by decide +kernel, ?_, ?_, ?_, (hexcluded _ hdate).1, ?_, ?_⟩
  · exact (hnodes "Cat").mpr ⟨by decide +kernel, by decide +kernel⟩
  · exact (hdependencies "Pet" hpet "Dog").mpr ⟨by decide +kernel, by decide +kernel⟩
  · exact (hdependencies "Pet" hpet "Named").mpr ⟨by decide +kernel, by decide +kernel⟩
  · exact fun h => ((hdependencies "Pet" hpet "date").mp h).2 hdate
  · exact hexcluded "Any" (by decide +kernel)

end SchemaModels.Session
