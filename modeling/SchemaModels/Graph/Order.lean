import SchemaModels.Graph.Basic
import SchemaModels.Graph.Sorter

/-! # Dependency order

All nodes, each after the nodes on which it depends. A sorter passes out the nodes that could come next,
and of these the one of the least rank comes, which is found in a heap. -/

namespace SchemaModels.DependencyGraph

/-! ## Heaps -/

/-- Ranks of which the least can be taken. -/
structure Heap where
  ranks : List Rank := []

namespace Heap

def push (h : Heap) (r : Rank) : Heap := ⟨r :: h.ranks⟩

/-- Takes the least rank. An empty heap has none. -/
def pop : Heap → Option (Rank × Heap)
  | ⟨[]⟩ => none
  | ⟨r :: rest⟩ =>
    let least := rest.foldl (fun a b => if a.le b then a else b) r
    some (least, ⟨(r :: rest).erase least⟩)

end Heap

/-! ## The loop -/

/-- A sorter, the ranks of the names that it has passed out and that have not come, and the names that
have. -/
structure Loop where
  sorter : Sorter
  heap : Heap := {}
  order : List String := []

namespace Loop

/-- One round: the names that became ready go into the heap, and the least name in it comes. -/
def step (rank : String → Option Rank) (l : Loop) : Option Loop := do
  let (names, sorter) ← l.sorter.takeReady
  let ranks ← names.mapM' rank
  let (least, heap) ← (ranks.foldl Heap.push l.heap).pop
  let sorter ← sorter.finish least.name
  return { sorter, heap, order := l.order ++ [least.name] }

/-- Each round leaves one name less that is not done. -/
theorem length_unfinished_step {rank : String → Option Rank} {l l' : Loop}
    (h : l.step rank = some l') :
    l'.sorter.unfinished.length < l.sorter.unfinished.length := by
  obtain ⟨⟨names, taken⟩, htaken, h⟩ := Option.bind_eq_some_iff.mp h
  obtain ⟨ranks, -, h⟩ := Option.bind_eq_some_iff.mp h
  obtain ⟨⟨least, heap⟩, -, h⟩ := Option.bind_eq_some_iff.mp h
  obtain ⟨finished, hfinished, h⟩ := Option.bind_eq_some_iff.mp h
  cases h
  rw [← Sorter.unfinished_takeReady htaken]
  exact Sorter.length_unfinished_finish hfinished

/-- The names in the order in which they come, as long as the sorter has any. -/
def run (rank : String → Option Rank) (l : Loop) : Option (List String) :=
  if l.sorter.isActive then
    match _h : l.step rank with
    | some next => next.run rank
    | none => none
  else some l.order
termination_by l.sorter.unfinished.length
decreasing_by exact length_unfinished_step _h

end Loop

/-- The names of a sorter in order, or a cycle. -/
def sortBy (rank : String → Option Rank) (s : Sorter) : Option (Except (List String) (List String)) :=
  match s.findCycle with
  | some cycle => some (.error cycle)
  | none => (Loop.run rank { sorter := s.prepare }).map .ok

/-! ## The order of a graph -/

/-- How the elements of a set are listed, depending on the order in which they came. Any way is
possible. -/
structure Listing where
  list : List String → List String
  perm : ∀ names, (list names).Perm names

def Listing.byName : Listing where
  list names := names.mergeSort
  perm names := List.mergeSort_perm names _

/-- The names of ranks, which stand by position. Names at the same position stay as they are. -/
def namesByKey (ranks : List Rank) : List String := (ranks.mergeSort Rank.keyLe).map Rank.name

/-- All nodes, each with the names on which it depends. -/
def rows (g : DependencyGraph) (listing : Listing) : List (String × List String) :=
  g.nodes.map fun n => (n, namesByKey ((listing.list (g.dependencies n)).map g.rank))

/-- The nodes in dependency order, or a cycle, however sets are listed. It comes to nothing if the sorter
refuses a step or a name is taken from an empty heap. -/
def sort (g : DependencyGraph) (listing : Listing) : Option (Except (List String) (List String)) :=
  sortBy (fun n => some (g.rank n)) (.ofRows (g.rows listing))

/-- The nodes in dependency order, or a cycle. -/
def order (g : DependencyGraph) : Except (List String) (List String) :=
  (g.sort .byName).getD (.ok [])

end SchemaModels.DependencyGraph
