import SchemaModels.Distinct
import SchemaModels.Table

/-! # Dependency graphs

Which declaration has to stand after which. Nodes are names, in the order in which they were first
mentioned; some names are excluded and never become nodes. -/

namespace SchemaModels

/-- A graph of names. An edge `(a, b)` says that `a` depends on `b`. -/
structure DependencyGraph where
  excluded : List String := []
  positions : Table String Int := ∅
  nodes : List String := []
  edges : List (String × String) := []
  deriving DecidableEq, Repr

namespace DependencyGraph

/-- Whether a name may become a node. -/
def admits (g : DependencyGraph) (name : String) : Bool := !g.excluded.contains name

def contains (g : DependencyGraph) (name : String) : Bool := g.nodes.contains name

/-- Adds a node, unless it is there or excluded. -/
def addNode (g : DependencyGraph) (name : String) : DependencyGraph :=
  if g.admits name then { g with nodes := Distinct.add g.nodes name } else g

/-- Records that `a` depends on `b`. Both become nodes; an excluded end gives no edge. -/
def addEdge (g : DependencyGraph) (a b : String) : DependencyGraph :=
  let g := (g.addNode a).addNode b
  if g.admits a && g.admits b then { g with edges := Distinct.add g.edges (a, b) } else g

/-- The names on which a node depends directly. -/
def dependencies (g : DependencyGraph) (name : String) : List String :=
  (g.edges.filter (·.1 == name)).map (·.2)

/-- The nodes that depend directly on a name, in the order of the nodes. -/
def dependents (g : DependencyGraph) (name : String) : List String :=
  g.nodes.filter ((g.edges.filter (·.2 == name)).map (·.1)).contains

/-! ## Calls

A graph is the outcome of a sequence of additions. -/

inductive Call
  | node (name : String)
  | edge (a b : String)
  deriving DecidableEq, Repr

def apply (g : DependencyGraph) : Call → DependencyGraph
  | .node name => g.addNode name
  | .edge a b => g.addEdge a b

def applyAll (g : DependencyGraph) (calls : List Call) : DependencyGraph := calls.foldl apply g

/-- The graph that a sequence of additions builds from nothing. -/
def ofCalls (excluded : List String) (positions : Table String Int) (calls : List Call) :
    DependencyGraph :=
  applyAll { excluded, positions } calls

/-! ## What additions change -/

variable {g : DependencyGraph} {a b c n : String}

@[simp] theorem mem_dependencies : b ∈ g.dependencies a ↔ (a, b) ∈ g.edges := by
  simp [dependencies]

theorem mem_dependents : a ∈ g.dependents b ↔ a ∈ g.nodes ∧ (a, b) ∈ g.edges := by
  simp [dependents]

@[simp] theorem excluded_addNode : (g.addNode n).excluded = g.excluded := by
  unfold addNode; split <;> rfl

@[simp] theorem positions_addNode : (g.addNode n).positions = g.positions := by
  unfold addNode; split <;> rfl

@[simp] theorem edges_addNode : (g.addNode n).edges = g.edges := by
  unfold addNode; split <;> rfl

@[simp] theorem excluded_addEdge : (g.addEdge a b).excluded = g.excluded := by
  unfold addEdge; dsimp only; split <;> simp

@[simp] theorem positions_addEdge : (g.addEdge a b).positions = g.positions := by
  unfold addEdge; dsimp only; split <;> simp

theorem mem_nodes_addNode : c ∈ (g.addNode n).nodes ↔ c ∈ g.nodes ∨ (c = n ∧ n ∉ g.excluded) := by
  unfold addNode
  split <;> simp_all [admits]

theorem nodes_addEdge : (g.addEdge a b).nodes = ((g.addNode a).addNode b).nodes := by
  unfold addEdge; dsimp only; split <;> rfl

theorem mem_edges_addEdge {e : String × String} :
    e ∈ (g.addEdge a b).edges ↔
      e ∈ g.edges ∨ (e = (a, b) ∧ a ∉ g.excluded ∧ b ∉ g.excluded) := by
  unfold addEdge
  dsimp only
  split <;> simp_all [admits]

/-! ## Ranks -/

/-- The rank of a node among those that could come next: names with a position by it, the others
after them by their place among the nodes; the name itself decides between equals. -/
structure Rank where
  group : Nat
  place : Int
  name : String
  deriving DecidableEq, Repr

/-- Compares ranks. -/
def Rank.le (a b : Rank) : Bool :=
  if a.group ≠ b.group then a.group < b.group
  else if a.place ≠ b.place then a.place < b.place
  else a.name ≤ b.name

/-- Compares ranks up to their names. -/
def Rank.keyLe (a b : Rank) : Bool :=
  if a.group ≠ b.group then a.group < b.group else a.place ≤ b.place

def rank (g : DependencyGraph) (name : String) : Rank :=
  match g.positions.get? name with
  | some p => ⟨0, p, name⟩
  | none => ⟨1, g.nodes.idxOf name, name⟩

@[simp] theorem name_rank : (g.rank n).name = n := by
  unfold rank; split <;> rfl

end DependencyGraph

end SchemaModels
