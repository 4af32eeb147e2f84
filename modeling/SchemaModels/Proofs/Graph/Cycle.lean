import Mathlib.Data.List.Chain
import Mathlib.Data.List.Nodup
import Mathlib.Data.List.Perm.Subperm
import Mathlib.Logic.Relation
import SchemaModels.Graph.Sorter
import SchemaModels.Proofs.Graph.Additions

/-! # The search for a cycle

What the search reports is a cycle (`IsCycle`), by the path that it keeps. If it reports none then every
name that it finished is accessible along `DependsOn`: a node is finished only after all nodes that
depend on it, so accessibility passes from these to it, and there is no cycle. -/

namespace SchemaModels.DependencyGraph

variable {g : DependencyGraph}

/-! ## Cycles -/

/-- A name depends directly on another. -/
def DependsOn (g : DependencyGraph) (a b : String) : Prop := b ∈ g.dependencies a

/-- Some name depends on itself, directly or through others. -/
def Cyclic (g : DependencyGraph) : Prop := ∃ n, Relation.TransGen g.DependsOn n n

/-- A closed walk of nodes: each is a direct dependency of the next one, and only the first comes
again, at the end. -/
structure IsCycle (g : DependencyGraph) (cycle : List String) : Prop where
  chain : cycle.IsChain fun a b => g.DependsOn b a
  closed : cycle.head? = cycle.getLast?
  two_le : 2 ≤ cycle.length
  nodup : cycle.dropLast.Nodup
  nodes : ∀ n ∈ cycle, n ∈ g.nodes

theorem transGen_of_isChain {R : String → String → Prop} {a b : String} {l : List String}
    (h : (a :: (l ++ [b])).IsChain R) : Relation.TransGen R a b := by
  induction l generalizing a with
  | nil => exact .single (List.isChain_cons_cons.mp h).1
  | cons c l ih =>
    obtain ⟨hac, hrest⟩ := List.isChain_cons_cons.mp h
    exact .head hac (ih hrest)

theorem IsCycle.cyclic {cycle : List String} (h : g.IsCycle cycle) : g.Cyclic := by
  obtain ⟨hchain, hclosed, hlen, -, -⟩ := h
  cases cycle with
  | nil => simp at hlen
  | cons a rest =>
    obtain rfl | ⟨mid, b, rfl⟩ := List.eq_nil_or_concat rest
    · simp at hlen
    · have hab : a = b := by simpa [List.getLast?_cons] using hclosed
      subst hab
      rw [List.concat_eq_append] at hchain
      exact ⟨a, (Relation.transGen_swap).mp (transGen_of_isChain hchain)⟩

theorem not_cyclic_of_acc (h : ∀ n, Acc g.DependsOn n) : ¬g.Cyclic := by
  rintro ⟨n, hn⟩
  induction (h n).transGen with
  | intro n _ ih => exact ih n hn hn

/-! ## One visit -/

/-- What holds when the search stands at the end of a path, given from its end: each name on it
depends on the next one, all of it has been seen, and what has been seen besides is finished. -/
structure Search (g : DependencyGraph) (path seen : List String) : Prop where
  chain : path.IsChain g.DependsOn
  nodup : path.Nodup
  nodes : ∀ n ∈ path, n ∈ g.nodes
  covered : ∀ n ∈ path, n ∈ seen
  finished : ∀ n ∈ seen, n ∈ path ∨ Acc g.DependsOn n

/-- What the search may come to after it has visited some names from a path. -/
def Visited (g : DependencyGraph) (path names : List String) :
    Except (List String) (List String) → Prop
  | .ok seen => g.Search path seen ∧ ∀ n ∈ names, Acc g.DependsOn n
  | .error cycle => g.IsCycle cycle

theorem Search.nil : g.Search [] [] := ⟨.nil, List.nodup_nil, by simp, by simp, by simp⟩

theorem Search.push {path seen : List String} {node : String} (H : g.Search path seen)
    (hnode : node ∈ g.nodes) (hnext : ∀ p ∈ path.head?, g.DependsOn node p) (hnew : node ∉ seen) :
    g.Search (node :: path) (node :: seen) where
  chain := List.isChain_cons.mpr ⟨hnext, H.chain⟩
  nodup := List.nodup_cons.mpr ⟨fun h => hnew (H.covered node h), H.nodup⟩
  nodes := by
    intro n hn
    rcases List.mem_cons.mp hn with rfl | hn
    · exact hnode
    · exact H.nodes n hn
  covered := by
    intro n hn
    rcases List.mem_cons.mp hn with rfl | hn
    · exact List.mem_cons_self
    · exact List.mem_cons_of_mem _ (H.covered n hn)
  finished := by
    intro n hn
    rcases List.mem_cons.mp hn with rfl | hn
    · exact .inl List.mem_cons_self
    · exact (H.finished n hn).imp_left (List.mem_cons_of_mem _)

/-- A node is finished when it leaves the path. -/
theorem Search.pop {path seen : List String} {node : String} (H : g.Search (node :: path) seen)
    (hacc : Acc g.DependsOn node) : g.Search path seen where
  chain := (List.isChain_cons.mp H.chain).2
  nodup := (List.nodup_cons.mp H.nodup).2
  nodes n hn := H.nodes n (List.mem_cons_of_mem _ hn)
  covered n hn := H.covered n (List.mem_cons_of_mem _ hn)
  finished := by
    intro n hn
    rcases H.finished n hn with h | h
    · rcases List.mem_cons.mp h with rfl | h
      · exact .inr hacc
      · exact .inl h
    · exact .inr h

/-- A path that comes back to one of its names closes a cycle. -/
theorem Search.isCycle_closeCycle {path seen : List String} {node : String}
    (H : g.Search path seen) (hnode : node ∈ g.nodes)
    (hnext : ∀ p ∈ path.head?, g.DependsOn node p) (hmem : node ∈ path) :
    g.IsCycle (Sorter.closeCycle path node) := by
  obtain ⟨start, rest, rfl, hstart⟩ := List.eq_append_cons_of_mem hmem
  have htake : (start ++ node :: rest).takeWhile (· != node) = start := by
    rw [List.takeWhile_append_of_pos (by grind), List.takeWhile_cons_of_neg (by simp),
      List.append_nil]
  -- the walk from the end of the path back to `node`, read the other way round
  have hwalk : (node :: (start ++ [node])).IsChain g.DependsOn := by
    have hall := List.isChain_cons.mpr ⟨hnext, H.chain⟩
    rw [List.append_cons, ← List.cons_append] at hall
    exact (List.isChain_append.mp hall).1
  have hrev : (Sorter.closeCycle (start ++ node :: rest) node).reverse = node :: (start ++ [node]) := by
    simp [Sorter.closeCycle, htake]
  refine ⟨?_, ?_, ?_, ?_, ?_⟩
  · rw [← List.isChain_reverse, hrev]
    exact hwalk
  · simp [Sorter.closeCycle, List.getLast?_cons]
  · simp [Sorter.closeCycle]
  · have hcycle : (Sorter.closeCycle (start ++ node :: rest) node).dropLast = node :: start.reverse := by
      rw [Sorter.closeCycle, htake, List.dropLast_concat]
    rw [hcycle, List.nodup_cons, List.mem_reverse]
    exact ⟨hstart, List.nodup_reverse.mpr (List.nodup_append.mp H.nodup).1⟩
  · intro n hn
    rw [← List.mem_reverse, hrev] at hn
    rcases List.mem_cons.mp hn with rfl | hn
    · exact hnode
    · exact H.nodes n (by simp at hn ⊢; grind)

/-- The step of the search: visits that end well end well one after the other. -/
theorem visited_foldlM {path names seen : List String} {visit : List String → String →
    Except (List String) (List String)} (H : g.Search path seen)
    (hvisit : ∀ seen, g.Search path seen → ∀ n ∈ names, g.Visited path [n] (visit seen n)) :
    g.Visited path names (names.foldlM visit seen) := by
  induction names generalizing seen with
  | nil => exact ⟨H, by simp⟩
  | cons n names ih =>
    have hn := hvisit seen H n List.mem_cons_self
    rw [List.foldlM_cons]
    cases hr : visit seen n with
    | error cycle =>
      rw [hr] at hn
      exact hn
    | ok seen' =>
      rw [hr] at hn
      have hrest := ih hn.1 fun seen H m hm => hvisit seen H m (List.mem_cons_of_mem _ hm)
      change g.Visited path (n :: names) (names.foldlM visit seen')
      cases hs : names.foldlM visit seen' with
      | error cycle =>
        rw [hs] at hrest
        exact hrest
      | ok last =>
        rw [hs] at hrest
        refine ⟨hrest.1, fun m hm => ?_⟩
        rcases List.mem_cons.mp hm with rfl | hm
        · exact hn.2 m List.mem_cons_self
        · exact hrest.2 m hm

theorem visit_of_mem_path {depth : Nat} {path seen : List String} {node : String}
    (hseen : node ∈ seen) (hpath : node ∈ path) :
    Sorter.visit g.dependents depth path seen node = .error (Sorter.closeCycle path node) := by
  cases depth <;> simp [Sorter.visit, hseen, hpath]

theorem visit_of_mem_seen {depth : Nat} {path seen : List String} {node : String}
    (hseen : node ∈ seen) (hpath : node ∉ path) : Sorter.visit g.dependents depth path seen node = .ok seen := by
  cases depth <;> simp [Sorter.visit, hseen, hpath]

theorem visit_of_new {depth : Nat} {path seen : List String} {node : String} (hseen : node ∉ seen) :
    Sorter.visit g.dependents (depth + 1) path seen node =
      (g.dependents node).foldlM (Sorter.visit g.dependents depth (node :: path)) (node :: seen) := by
  simp [Sorter.visit, hseen]

/-- A visit of a seen node closes a cycle if the node is on the path, else the node is finished. -/
theorem visited_of_mem_seen {depth : Nat} {path seen : List String} {node : String}
    (H : g.Search path seen) (hnode : node ∈ g.nodes)
    (hnext : ∀ p ∈ path.head?, g.DependsOn node p) (hseen : node ∈ seen) :
    g.Visited path [node] (Sorter.visit g.dependents depth path seen node) := by
  by_cases hpath : node ∈ path
  · rw [visit_of_mem_path hseen hpath]
    exact H.isCycle_closeCycle hnode hnext hpath
  · rw [visit_of_mem_seen hseen hpath]
    exact ⟨H, by simpa using (H.finished node hseen).resolve_left hpath⟩

/-- A path that does not repeat a node is no longer than the graph. -/
theorem Search.length_lt {path seen : List String} {node : String} (H : g.Search path seen)
    (hnode : node ∈ g.nodes) (hnew : node ∉ seen) : path.length < g.nodes.length := by
  have hnodup : (node :: path).Nodup :=
    List.nodup_cons.mpr ⟨fun h => hnew (H.covered node h), H.nodup⟩
  have hsub : node :: path ⊆ g.nodes := by
    intro n hn
    rcases List.mem_cons.mp hn with rfl | hn
    · exact hnode
    · exact H.nodes n hn
  exact (List.subperm_of_subset hnodup hsub).length_le

/-- A visit from a path finds a cycle, or finishes its node. The depth suffices: it and the path
together are never shorter than the graph. -/
theorem visited_visit (hg : g.WF) {depth : Nat} {path seen : List String} {node : String}
    (H : g.Search path seen) (hnode : node ∈ g.nodes)
    (hnext : ∀ p ∈ path.head?, g.DependsOn node p) (hdepth : g.nodes.length ≤ depth + path.length) :
    g.Visited path [node] (Sorter.visit g.dependents depth path seen node) := by
  induction depth generalizing path seen node with
  | zero =>
    by_cases hseen : node ∈ seen
    · exact visited_of_mem_seen H hnode hnext hseen
    · exact absurd (H.length_lt hnode hseen) (by omega)
  | succ depth ih =>
    by_cases hseen : node ∈ seen
    · exact visited_of_mem_seen H hnode hnext hseen
    · have hfold : g.Visited (node :: path) (g.dependents node)
          ((g.dependents node).foldlM (Sorter.visit g.dependents depth (node :: path)) (node :: seen)) := by
        refine visited_foldlM (H.push hnode hnext hseen) fun seen' H' next hnext' => ?_
        obtain ⟨hmem, hedge⟩ := mem_dependents.mp hnext'
        refine ih H' hmem ?_ ?_
        · rintro p ⟨⟩
          exact mem_dependencies.mpr hedge
        · rw [List.length_cons]
          omega
      rw [visit_of_new hseen]
      cases hr : (g.dependents node).foldlM (Sorter.visit g.dependents depth (node :: path)) (node :: seen) with
      | error cycle =>
        rw [hr] at hfold
        exact hfold
      | ok seen' =>
        rw [hr] at hfold
        have hacc : Acc g.DependsOn node := by
          refine .intro node fun n hn => hfold.2 n ?_
          have hedge := mem_dependencies.mp hn
          exact mem_dependents.mpr ⟨hg.source hedge, hedge⟩
        exact ⟨hfold.1.pop hacc, by simpa using hacc⟩

/-! ## The whole search -/

/-- A search that starts from nodes finds a cycle, or finishes them all. -/
theorem visited_nodes (hg : g.WF) {names : List String} (hnames : ∀ n ∈ names, n ∈ g.nodes)
    {depth : Nat} (hdepth : g.nodes.length ≤ depth) :
    g.Visited [] names (names.foldlM (Sorter.visit g.dependents depth []) []) := by
  refine visited_foldlM Search.nil fun seen H n hn => ?_
  exact visited_visit hg H (hnames n hn) (by simp) (by simpa using hdepth)

theorem not_cyclic_of_visited (hg : g.WF) {names seen : List String} (hnames : ∀ n ∈ g.nodes, n ∈ names)
    (h : g.Visited [] names (.ok seen)) : ¬g.Cyclic := by
  refine not_cyclic_of_acc fun n => ?_
  by_cases hn : n ∈ g.nodes
  · exact h.2 n (hnames n hn)
  · exact .intro n fun m hm => absurd (hg.target (mem_dependencies.mp hm)) hn

end SchemaModels.DependencyGraph
