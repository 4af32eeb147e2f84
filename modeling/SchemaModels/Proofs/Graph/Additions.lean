import Mathlib.Data.List.Nodup
import SchemaModels.Graph.Basic

/-! # Graphs built by additions

What a sequence of additions leaves in a graph: which names are nodes and in which order, which pairs are
edges, and the invariant `DependencyGraph.WF` that the search for a cycle and the dependency order rest
on. -/

namespace SchemaModels

/-! ## Repetitions -/

namespace Distinct

variable {α : Type} [BEq α]

theorem addAll_append (xs ys zs : List α) : addAll xs (ys ++ zs) = addAll (addAll xs ys) zs :=
  List.foldl_append

variable [LawfulBEq α]

theorem eraseDups_concat (xs : List α) (x : α) : (xs ++ [x]).eraseDups = add xs.eraseDups x := by
  have hcontains : xs.eraseDups.contains x = xs.contains x := by
    rw [Bool.eq_iff_iff, List.contains_iff_mem, List.contains_iff_mem, List.mem_eraseDups]
  rw [List.eraseDups_append, add, hcontains]
  cases hx : xs.contains x with
  | true =>
    have hnone : [x].removeAll xs = [] := by simp_all [List.removeAll]
    rw [hnone, if_pos rfl, List.eraseDups_nil, List.append_nil]
  | false =>
    have hsome : [x].removeAll xs = [x] := by simp_all [List.removeAll]
    rw [hsome, if_neg Bool.false_ne_true]
    rfl

/-- Elements that are added one by one stand where they first occur. -/
theorem addAll_eraseDups (xs ys : List α) : addAll xs.eraseDups ys = (xs ++ ys).eraseDups := by
  induction ys generalizing xs with
  | nil =>
    rw [List.append_nil]
    rfl
  | cons y ys ih =>
    have hrest := ih (xs ++ [y])
    rwa [eraseDups_concat, List.append_assoc, List.singleton_append] at hrest

end Distinct

namespace DependencyGraph

variable {g : DependencyGraph} {a b n : String} {calls : List Call}

/-! ## Nodes and edges after additions -/

/-- The names that an addition mentions, a source before its target. -/
def Call.names : Call → List String
  | .node name => [name]
  | .edge a b => [a, b]

@[simp] theorem excluded_apply (c : Call) : (g.apply c).excluded = g.excluded := by
  cases c with
  | node => exact excluded_addNode
  | edge => exact excluded_addEdge

theorem admits_iff : g.admits n = true ↔ n ∉ g.excluded := by
  rw [admits, Bool.not_eq_true', List.contains_eq_mem, decide_eq_false_iff_not]

theorem admits_congr {g' : DependencyGraph} (h : g'.excluded = g.excluded) : g'.admits = g.admits := by
  funext n
  rw [admits, admits, h]

theorem nodes_addNode : (g.addNode n).nodes = Distinct.addAll g.nodes ([n].filter g.admits) := by
  unfold addNode
  cases hn : g.admits n with
  | true => simp [hn, Distinct.addAll]
  | false => simp [hn, Distinct.addAll]

theorem nodes_apply (c : Call) :
    (g.apply c).nodes = Distinct.addAll g.nodes (c.names.filter g.admits) := by
  cases c with
  | node n => exact nodes_addNode
  | edge a b =>
    rw [apply, nodes_addEdge, nodes_addNode, nodes_addNode, admits_congr excluded_addNode,
      ← Distinct.addAll_append, ← List.filter_append]
    rfl

theorem mem_nodes_apply (c : Call) :
    n ∈ (g.apply c).nodes ↔ n ∈ g.nodes ∨ (n ∈ c.names ∧ n ∉ g.excluded) := by
  rw [nodes_apply, Distinct.mem_addAll, List.mem_filter, admits_iff]

theorem mem_edges_apply (c : Call) :
    (a, b) ∈ (g.apply c).edges ↔
      (a, b) ∈ g.edges ∨ (c = .edge a b ∧ a ∉ g.excluded ∧ b ∉ g.excluded) := by
  cases c with
  | node name => simp [apply]
  | edge a' b' =>
    simp only [apply, mem_edges_addEdge, Call.edge.injEq, Prod.mk.injEq]
    grind

@[simp] theorem excluded_applyAll : (g.applyAll calls).excluded = g.excluded := by
  induction calls generalizing g with
  | nil => rfl
  | cons c calls ih => exact (ih (g := g.apply c)).trans (excluded_apply c)

/-- Names become nodes one by one, as they are mentioned. -/
theorem nodes_applyAll :
    (g.applyAll calls).nodes =
      Distinct.addAll g.nodes ((calls.flatMap Call.names).filter g.admits) := by
  induction calls generalizing g with
  | nil => rfl
  | cons c calls ih =>
    have hrest := ih (g := g.apply c)
    rw [admits_congr (excluded_apply c), nodes_apply] at hrest
    rw [applyAll, List.foldl_cons, ← applyAll, hrest, List.flatMap_cons, List.filter_append,
      Distinct.addAll_append]

/-- The nodes are the old ones and the names mentioned, less the excluded names. -/
theorem mem_nodes_applyAll :
    n ∈ (g.applyAll calls).nodes ↔
      n ∈ g.nodes ∨ ((∃ c ∈ calls, n ∈ c.names) ∧ n ∉ g.excluded) := by
  rw [nodes_applyAll, Distinct.mem_addAll, List.mem_filter, admits_iff, List.mem_flatMap]

/-- The edges are the old ones and those asked for, less those with an excluded end. -/
theorem mem_edges_applyAll :
    (a, b) ∈ (g.applyAll calls).edges ↔
      (a, b) ∈ g.edges ∨ (.edge a b ∈ calls ∧ a ∉ g.excluded ∧ b ∉ g.excluded) := by
  induction calls generalizing g with
  | nil => simp [applyAll]
  | cons c calls ih =>
    have hstep := ih (g := g.apply c)
    rw [excluded_apply, mem_edges_apply] at hstep
    rw [applyAll, List.foldl_cons, ← applyAll, hstep, List.mem_cons]
    grind

/-! ## The invariant -/

theorem nodup_edges_apply (h : g.edges.Nodup) (c : Call) : (g.apply c).edges.Nodup := by
  cases c with
  | node n => rwa [apply, edges_addNode]
  | edge a b =>
    unfold apply addEdge
    dsimp only
    split
    · exact Distinct.nodup_add (by rwa [edges_addNode, edges_addNode]) (a, b)
    · rwa [edges_addNode, edges_addNode]

/-- No node or edge is listed twice, no node is excluded, and the ends of every edge are nodes. -/
structure WF (g : DependencyGraph) : Prop where
  nodup : g.nodes.Nodup
  nodup_edges : g.edges.Nodup
  admitted : ∀ {n}, n ∈ g.nodes → n ∉ g.excluded
  source : ∀ {a b}, (a, b) ∈ g.edges → a ∈ g.nodes
  target : ∀ {a b}, (a, b) ∈ g.edges → b ∈ g.nodes

theorem WF.empty (excluded : List String) (positions : Table String Int) :
    WF { excluded, positions } where
  nodup := List.nodup_nil
  nodup_edges := List.nodup_nil
  admitted h := nomatch h
  source h := nomatch h
  target h := nomatch h

theorem WF.apply (H : g.WF) (c : Call) : (g.apply c).WF where
  nodup := by
    rw [nodes_apply]
    exact Distinct.nodup_addAll H.nodup _
  nodup_edges := nodup_edges_apply H.nodup_edges c
  admitted h := by
    rw [excluded_apply]
    rcases (mem_nodes_apply c).1 h with h | h
    · exact H.admitted h
    · exact h.2
  source h := by
    rw [mem_nodes_apply]
    rcases (mem_edges_apply c).1 h with h | ⟨rfl, ha, _⟩
    · exact .inl (H.source h)
    · exact .inr ⟨by simp [Call.names], ha⟩
  target h := by
    rw [mem_nodes_apply]
    rcases (mem_edges_apply c).1 h with h | ⟨rfl, _, hb⟩
    · exact .inl (H.target h)
    · exact .inr ⟨by simp [Call.names], hb⟩

theorem WF.addNode (H : g.WF) (n : String) : (g.addNode n).WF := H.apply (.node n)

theorem WF.applyAll (H : g.WF) (calls : List Call) : (g.applyAll calls).WF := by
  induction calls generalizing g with
  | nil => exact H
  | cons c calls ih => exact ih (H.apply c)

theorem wf_ofCalls (excluded : List String) (positions : Table String Int) (calls : List Call) :
    (ofCalls excluded positions calls).WF :=
  (WF.empty excluded positions).applyAll calls

/-- Only nodes depend on anything. -/
theorem WF.dependencies_eq_nil (H : g.WF) (hn : n ∉ g.nodes) : g.dependencies n = [] :=
  List.eq_nil_iff_forall_not_mem.mpr fun _ hd => hn (H.source (mem_dependencies.mp hd))

theorem WF.nodup_dependencies (H : g.WF) (n : String) : (g.dependencies n).Nodup := by
  refine (H.nodup_edges.filter _).map_on fun e he e' he' htarget => ?_
  have hsource : e.1 = e'.1 := by
    rw [beq_iff_eq.mp (List.mem_filter.mp he).2, beq_iff_eq.mp (List.mem_filter.mp he').2]
  exact Prod.ext hsource htarget

theorem WF.nodup_dependents (H : g.WF) (n : String) : (g.dependents n).Nodup := H.nodup.filter _

/-! ## Names that have to stand after others -/

/-- The additions for a name that has to stand after others. -/
def entryCalls (name : String) (names : List String) : List Call := .node name :: names.map (.edge name)

section

variable {name : String} {names : List String}

theorem exists_mem_entryCalls :
    (∃ c ∈ entryCalls name names, n ∈ c.names) ↔ n = name ∨ n ∈ names := by
  simp only [entryCalls, List.mem_cons, List.mem_map, exists_eq_or_imp, Call.names, List.not_mem_nil,
    or_false]
  grind [Call.names]

theorem edge_mem_entryCalls : .edge a b ∈ entryCalls name names ↔ name = a ∧ b ∈ names := by
  simp only [entryCalls, List.mem_cons, List.mem_map]
  grind

end

end DependencyGraph

end SchemaModels
