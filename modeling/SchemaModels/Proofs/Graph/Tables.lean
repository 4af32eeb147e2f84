import SchemaModels.Proofs.Graph.Order
import SchemaModels.Proofs.Table

/-! # Graphs in tables

A graph can be kept in two tables with its nodes as keys: one has the index that each node got when it
came, the other the names on which it depends. What stands under a key that is not there cannot be looked
up, so additions and the order of the nodes might come to nothing. They never do: whatever is added, the
tables are those of the graph (`DependencyGraph.toTables`), and so is the order that is found by looking
things up in them. -/

namespace SchemaModels.DependencyGraph

variable {g g' : DependencyGraph} {a b n : String}

/-! ## Tables -/

/-- Two tables for a graph, with the names that are excluded and the positions of names. -/
structure Tables where
  excluded : List String
  positions : Table String Int
  indices : Table String Nat := ∅
  successors : Table String (List String) := ∅

namespace Tables

def nodes (t : Tables) : List String := t.indices.keys

def size (t : Tables) : Nat := t.indices.entries.length

def dependencies (t : Tables) (name : String) : List String := (t.successors.get? name).getD []

/-- Adds a node to both tables, unless it is there or excluded. Its index is the number of nodes so far. -/
def addNode (t : Tables) (name : String) : Tables :=
  if t.indices.contains name || t.excluded.contains name then t
  else
    { t with
      indices := t.indices.insert name t.size
      successors := t.successors.insert name [] }

/-- Adds a name to those on which a node depends, if the node has an entry for them. -/
def link (t : Tables) (a b : String) : Option Tables := do
  let known ← t.successors.get? a
  return { t with successors := t.successors.insert a (Distinct.add known b) }

def addEdge (t : Tables) (a b : String) : Option Tables :=
  let t := (t.addNode a).addNode b
  if t.indices.contains a && t.indices.contains b then t.link a b else some t

def apply (t : Tables) : Call → Option Tables
  | .node name => some (t.addNode name)
  | .edge a b => t.addEdge a b

/-- The tables that a sequence of additions builds from nothing. -/
def ofCalls (excluded : List String) (positions : Table String Int) (calls : List Call) :
    Option Tables :=
  calls.foldlM apply { excluded, positions }

/-- The rank of a name, by its position or else by its index. -/
def rank (t : Tables) (name : String) : Option Rank :=
  match t.positions.get? name with
  | some p => some ⟨0, p, name⟩
  | none => do return ⟨1, ← t.indices.get? name, name⟩

/-- All nodes, each with the names on which it depends. -/
def rows (t : Tables) (listing : Listing) : Option (List (String × List String)) :=
  t.nodes.mapM' fun n => do
    let names ← t.successors.get? n
    return (n, namesByKey (← (listing.list names).mapM' t.rank))

/-- The nodes in dependency order, or a cycle, however sets are listed. -/
def sort (t : Tables) (listing : Listing) : Option (Except (List String) (List String)) := do
  sortBy t.rank (.ofRows (← t.rows listing))

def order (t : Tables) : Option (Except (List String) (List String)) := t.sort .byName

end Tables

/-! ## The tables of a graph -/

def toTables (g : DependencyGraph) : Tables where
  excluded := g.excluded
  positions := g.positions
  indices := .tabulate g.nodes (g.nodes.idxOf ·)
  successors := .tabulate g.nodes g.dependencies

theorem nodes_toTables : g.toTables.nodes = g.nodes := Table.keys_tabulate

theorem size_toTables : g.toTables.size = g.nodes.length := List.length_map _

theorem contains_indices_toTables : g.toTables.indices.contains n = true ↔ n ∈ g.nodes := by
  rw [toTables, Table.contains_tabulate, List.contains_iff_mem]

theorem get?_successors_toTables (hn : n ∈ g.nodes) :
    g.toTables.successors.get? n = some (g.dependencies n) :=
  Table.get?_tabulate_of_mem hn

theorem dependencies_toTables (hg : g.WF) : g.toTables.dependencies n = g.dependencies n := by
  rw [Tables.dependencies]
  by_cases hn : n ∈ g.nodes
  · rw [get?_successors_toTables hn]
    rfl
  · rw [hg.dependencies_eq_nil hn, toTables, Table.get?_tabulate_of_not_mem hn]
    rfl

/-- The index of a node is its place among the nodes, and nothing else has one. -/
theorem get?_indices_toTables (hg : g.WF) {i : Nat} :
    g.toTables.indices.get? n = some i ↔ g.nodes[i]? = some n := by
  rw [toTables]
  by_cases hn : n ∈ g.nodes
  · rw [Table.get?_tabulate_of_mem hn, Option.some.injEq]
    constructor
    · rintro rfl
      exact List.getElem?_idxOf hn
    · intro hi
      obtain ⟨hlt, rfl⟩ := List.getElem?_eq_some_iff.mp hi
      exact hg.nodup.idxOf_getElem i hlt
  · rw [Table.get?_tabulate_of_not_mem hn]
    exact ⟨nofun, fun hi => absurd (List.mem_of_getElem? hi) hn⟩

/-! ## Additions -/

theorem addNode_of_mem (h : n ∈ g.nodes ∨ n ∈ g.excluded) : g.addNode n = g := by
  unfold addNode
  split
  case isTrue hadmits =>
    have hcontains := List.contains_iff_mem.mpr (h.resolve_right (admits_iff.mp hadmits))
    rw [Distinct.add, if_pos hcontains]
  case isFalse => rfl

theorem addNode_of_not_mem (hn : n ∉ g.nodes) (hexcluded : n ∉ g.excluded) :
    g.addNode n = { g with nodes := g.nodes ++ [n] } := by
  rw [addNode, if_pos (admits_iff.mpr hexcluded), Distinct.add,
    if_neg (mt List.contains_iff_mem.mp hn)]

theorem addNode_toTables (hg : g.WF) (n : String) :
    g.toTables.addNode n = (g.addNode n).toTables := by
  have hknown : (g.toTables.indices.contains n || g.toTables.excluded.contains n) = true ↔
      n ∈ g.nodes ∨ n ∈ g.excluded := by
    rw [Bool.or_eq_true, contains_indices_toTables, List.contains_iff_mem]
    rfl
  rw [Tables.addNode]
  split
  case isTrue h => rw [addNode_of_mem (hknown.mp h)]
  case isFalse h =>
    obtain ⟨hn, hexcluded⟩ := not_or.mp (mt hknown.mpr h)
    have hplace : (g.nodes ++ [n]).idxOf n = g.toTables.size := by
      rw [size_toTables, List.idxOf_append_of_notMem hn, List.idxOf_cons_self, Nat.add_zero]
    have hindices : g.toTables.indices.insert n g.toTables.size =
        .tabulate (g.nodes ++ [n]) ((g.nodes ++ [n]).idxOf ·) :=
      Table.insert_tabulate_of_not_mem hn hplace fun m hm => (List.idxOf_append_of_mem hm).symm
    have hsuccessors : g.toTables.successors.insert n [] =
        .tabulate (g.nodes ++ [n]) g.dependencies :=
      Table.insert_tabulate_of_not_mem hn (hg.dependencies_eq_nil hn) fun _ _ => rfl
    rw [addNode_of_not_mem hn hexcluded, hindices, hsuccessors]
    rfl

/-- The graph with one more edge between nodes. -/
def link (g : DependencyGraph) (a b : String) : DependencyGraph :=
  { g with edges := Distinct.add g.edges (a, b) }

theorem addEdge_eq (a b : String) :
    g.addEdge a b =
      if g.admits a && g.admits b then ((g.addNode a).addNode b).link a b
      else (g.addNode a).addNode b := by
  rw [addEdge, admits_congr excluded_addNode, admits_congr excluded_addNode]
  rfl

/-- A new edge comes after the others of its source. -/
theorem dependencies_link :
    (g.link a b).dependencies n =
      if n = a then Distinct.add (g.dependencies a) b else g.dependencies n := by
  have hcontains : g.edges.contains (a, b) = (g.dependencies a).contains b := by
    rw [Bool.eq_iff_iff, List.contains_iff_mem, List.contains_iff_mem, mem_dependencies]
  rw [dependencies, link, Distinct.add, Distinct.add, hcontains]
  by_cases hn : n = a
  · subst hn
    rw [if_pos rfl]
    split
    · rfl
    · simp [dependencies]
  · rw [if_neg hn]
    split
    · rfl
    · simp [dependencies, Ne.symm hn]

theorem link_toTables (hg : g.WF) (ha : a ∈ g.nodes) (b : String) :
    g.toTables.link a b = some (g.link a b).toTables := by
  have hsuccessors : g.toTables.successors.insert a (Distinct.add (g.dependencies a) b) =
      .tabulate g.nodes (g.link a b).dependencies := by
    refine Table.insert_tabulate_of_mem hg.nodup ha ?_ fun n _ hn => ?_
    · rw [dependencies_link, if_pos rfl]
    · rw [dependencies_link, if_neg hn]
  rw [Tables.link, get?_successors_toTables ha, Option.bind_eq_bind, Option.bind_some, hsuccessors]
  rfl

theorem addEdge_toTables (hg : g.WF) (a b : String) :
    g.toTables.addEdge a b = some (g.addEdge a b).toTables := by
  -- after both names were added, they are nodes exactly if they are admitted
  have hends : (((g.addNode a).addNode b).toTables.indices.contains a &&
      ((g.addNode a).addNode b).toTables.indices.contains b) = (g.admits a && g.admits b) := by
    have ha := hg.admitted (n := a)
    have hb := hg.admitted (n := b)
    rw [Bool.eq_iff_iff, Bool.and_eq_true, Bool.and_eq_true, contains_indices_toTables,
      contains_indices_toTables, mem_nodes_addNode, mem_nodes_addNode, mem_nodes_addNode,
      mem_nodes_addNode, admits_iff, admits_iff, excluded_addNode]
    grind
  rw [Tables.addEdge, addNode_toTables hg, addNode_toTables (hg.addNode a), addEdge_eq, hends]
  split
  case isTrue h =>
    rw [← hends, Bool.and_eq_true] at h
    exact link_toTables ((hg.addNode a).addNode b) (contains_indices_toTables.mp h.1) b
  case isFalse => rfl

theorem apply_toTables (hg : g.WF) (c : Call) : g.toTables.apply c = some (g.apply c).toTables := by
  cases c with
  | node n => exact congrArg some (addNode_toTables hg n)
  | edge a b => exact addEdge_toTables hg a b

theorem foldlM_apply_toTables (hg : g.WF) (calls : List Call) :
    calls.foldlM Tables.apply g.toTables = some (g.applyAll calls).toTables := by
  induction calls generalizing g with
  | nil => rfl
  | cons c calls ih =>
    rw [List.foldlM_cons, apply_toTables hg]
    exact ih (hg.apply c)

/-! ## The order -/

theorem rank_toTables (hn : n ∈ g.nodes) : g.toTables.rank n = some (g.rank n) := by
  have hindex : g.toTables.indices.get? n = some (g.nodes.idxOf n) := Table.get?_tabulate_of_mem hn
  have hpositions : g.toTables.positions = g.positions := rfl
  rw [Tables.rank, rank, hindex, hpositions]
  cases g.positions.get? n with
  | some p => rfl
  | none => rfl

/-- Whatever the rows need is found, as the ends of every edge are nodes. -/
theorem rows_toTables (hg : g.WF) (listing : Listing) :
    g.toTables.rows listing = some (g.rows listing) := by
  rw [Tables.rows, nodes_toTables]
  refine mapM'_eq_some fun n hn => ?_
  have hranks : (listing.list (g.dependencies n)).mapM' g.toTables.rank =
      some ((listing.list (g.dependencies n)).map g.rank) := by
    refine mapM'_eq_some fun d hd => rank_toTables ?_
    exact hg.target (mem_dependencies.mp ((listing.perm _).mem_iff.mp hd))
  rw [get?_successors_toTables hn, Option.bind_eq_bind, Option.bind_some, hranks]
  rfl

/-- The loop finds the ranks of all names that are passed out. -/
theorem sort_toTables (hg : g.WF) (listing : Listing) : g.toTables.sort listing = g.sort listing := by
  have hholds := holds_rows hg listing
  rw [Tables.sort, rows_toTables hg, Option.bind_eq_bind, Option.bind_some, sort]
  by_cases h : g.Cyclic
  · obtain ⟨cycle, hcycle, hsort, -⟩ := sortBy_of_cyclic g.toTables.rank hg h hholds
    rw [hsort, sortBy, hcycle]
  · rw [sortBy_of_not_cyclic hg h (fun _ => rank_toTables) hholds,
      sortBy_of_not_cyclic hg h (fun _ _ => rfl) hholds]

/-! ## Graphs by their additions -/

/-- A graph is determined by the additions that built it. Its nodes are the names that were mentioned and
are not excluded, each where it was first mentioned, and one name depends on another exactly if that edge
was added and neither name is excluded. In tables, the same additions never miss a key: both tables have
the nodes as keys, the index of a node is its place, and the order of the nodes is found, however sets are
listed. -/
theorem ofCalls_determined (excluded : List String) (positions : Table String Int)
    (calls : List Call) :
    let g := ofCalls excluded positions calls
    g.nodes = ((calls.flatMap Call.names).filter fun n => !excluded.contains n).eraseDups ∧
      g.nodes.Nodup ∧
      (∀ a b, b ∈ g.dependencies a ↔ .edge a b ∈ calls ∧ a ∉ excluded ∧ b ∉ excluded) ∧
      (∀ a b, b ∈ g.dependencies a → a ∈ g.nodes ∧ b ∈ g.nodes) ∧
      ∃ t, Tables.ofCalls excluded positions calls = some t ∧
        t.nodes = g.nodes ∧ t.successors.keys = g.nodes ∧ t.size = g.nodes.length ∧
        (∀ n i, t.indices.get? n = some i ↔ g.nodes[i]? = some n) ∧
        (∀ n, t.dependencies n = g.dependencies n) ∧
        (∀ n ∈ g.nodes, t.rank n = some (g.rank n)) ∧
        (∀ listing, t.sort listing = g.sort listing) ∧ t.order = some g.order := by
  intro g
  have hg : g.WF := wf_ofCalls excluded positions calls
  have hnodes : g.nodes =
      ((calls.flatMap Call.names).filter fun n => !excluded.contains n).eraseDups :=
    nodes_applyAll.trans (Distinct.addAll_eraseDups [] _)
  refine ⟨hnodes, hg.nodup, fun a b => ?_, fun a b hb => ?_, g.toTables,
    foldlM_apply_toTables (WF.empty excluded positions) calls, nodes_toTables, Table.keys_tabulate,
    size_toTables, fun n i => get?_indices_toTables hg, fun n => dependencies_toTables hg,
    fun n hn => rank_toTables hn, sort_toTables hg, (sort_toTables hg .byName).trans (sort_byName hg)⟩
  · rw [mem_dependencies]
    exact mem_edges_applyAll.trans (or_iff_right List.not_mem_nil)
  · rw [mem_dependencies] at hb
    exact ⟨hg.source hb, hg.target hb⟩

end SchemaModels.DependencyGraph
