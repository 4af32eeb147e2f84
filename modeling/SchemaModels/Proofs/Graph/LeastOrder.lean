import SchemaModels.Proofs.Graph.Order

/-! # The least ordering

Of all orderings of the nodes, the dependency order is the least one: at the first place where another
ordering differs, that one has a node with a greater key. In each round of the loop the names that
are left stand by rank, so what comes has the least key of all names that could come, and any ordering
has to go on with one of these. -/

namespace SchemaModels.DependencyGraph

variable {g : DependencyGraph} {names order : List String}

/-! ## Keys -/

/-- What decides between nodes that could come next: nodes with a position stand by it in front of the
others, these by their place among the nodes, and the name decides between equals. -/
def sortKey (g : DependencyGraph) (name : String) : ℕ ×ₗ ℤ ×ₗ String :=
  match g.positions.get? name with
  | some position => toLex (0, toLex (position, name))
  | none => toLex (1, toLex ((g.nodes.idxOf name : ℤ), name))

theorem key_rank (name : String) : (g.rank name).key = g.sortKey name := by
  rw [rank, sortKey]
  cases g.positions.get? name with
  | none => rfl
  | some position => rfl

theorem sortKey_injective : Function.Injective g.sortKey := by
  intro a b h
  rw [← key_rank, ← key_rank] at h
  exact rank_injective (Rank.key_injective h)

theorem pairwise_sortKey_byRank (names : List String) :
    (g.byRank names).Pairwise fun a b => g.sortKey a ≤ g.sortKey b := by
  refine (pairwise_byRank names).imp fun {a b} h => ?_
  rwa [key_rank, key_rank] at h

/-! ## Orderings of some names -/

/-- Some names in an order in which each stands after those among them on which it depends. -/
structure OrdersAmong (g : DependencyGraph) (names order : List String) : Prop where
  perm : order.Perm names
  before : ∀ earlier n later, order = earlier ++ n :: later →
    ∀ d ∈ g.dependencies n, d ∈ names → d ∈ earlier

theorem IsOrdering.ordersAmong (h : g.IsOrdering order) (hperm : names.Perm g.nodes) :
    g.OrdersAmong names order where
  perm := h.perm.trans hperm.symm
  before _ _ _ hsplit d hd _ := h.dependencies_before hsplit d hd

/-- The first name of an ordering waits for nothing. -/
theorem OrdersAmong.readyAmong_head {n : String} (h : g.OrdersAmong names (n :: order)) :
    g.readyAmong names n = true := by
  refine readyAmong_iff.mpr fun d hd hmem => ?_
  exact absurd (h.before [] n order rfl d hd hmem) List.not_mem_nil

/-- What comes after the first name orders the others. -/
theorem OrdersAmong.tail {n : String} (hnodup : names.Nodup) (h : g.OrdersAmong names (n :: order)) :
    g.OrdersAmong (names.filter (· != n)) order := by
  have hn : n ∈ names := h.perm.mem_iff.mp List.mem_cons_self
  refine ⟨(h.perm.trans (perm_cons_filter hnodup hn).symm).cons_inv, ?_⟩
  intro earlier m later hsplit d hd hmem
  obtain ⟨hdnames, hdn⟩ := List.mem_filter.mp hmem
  have hbefore := h.before (n :: earlier) m later (congrArg (List.cons n) hsplit) d hd hdnames
  exact (List.mem_cons.mp hbefore).resolve_left (bne_iff_ne.mp hdn)

/-! ## The loop -/

/-- The loop emits the least ordering of names that stand by key. -/
theorem emit_lt_of_ordersAmong (h : ¬g.Cyclic) (hnodup : names.Nodup)
    (hsorted : names.Pairwise fun a b => g.sortKey a ≤ g.sortKey b)
    (horder : g.OrdersAmong names order)
    (hne : order ≠ g.emit names.length names) :
    (g.emit names.length names).map g.sortKey < order.map g.sortKey := by
  -- by induction on the other ordering; the names that are left lose its first name
  induction order generalizing names with
  | nil =>
    obtain rfl := List.nil_perm.mp horder.perm
    exact absurd rfl hne
  | cons n order ih =>
    have hn : n ∈ names := horder.perm.mem_iff.mp List.mem_cons_self
    obtain ⟨first, hfirst⟩ := find?_readyAmong h (List.ne_nil_of_mem hn)
    have hle := key_le_of_find? hsorted hfirst hn horder.readyAmong_head
    rw [← length_filter_ne hnodup hn, emit, hfirst] at hne ⊢
    rw [List.map_cons, List.map_cons, List.cons_lt_cons_iff]
    by_cases heq : first = n
    · subst heq
      refine .inr ⟨rfl, ih (hnodup.filter _) (hsorted.filter _) (horder.tail hnodup) ?_⟩
      exact fun htail => hne (congrArg (List.cons first) htail)
    · exact .inl (lt_of_le_of_ne hle fun hkey => heq (sortKey_injective hkey))

/-! ## The dependency order -/

/-- However a graph was built, and however sets are listed, if no dependencies form a cycle then sorting it
comes to the least of all orderings of its nodes, comparing them node by node. Every other ordering is
greater, so there is only one least ordering. -/
theorem sort_lt_every_other (excluded : List String) (positions : Table String Int)
    (calls : List Call) (listing : Listing) (h : ¬(ofCalls excluded positions calls).Cyclic) :
    let g := ofCalls excluded positions calls
    ∃ l, g.sort listing = some (.ok l) ∧ g.order = .ok l ∧ g.IsOrdering l ∧
      ∀ other, g.IsOrdering other → other ≠ l → l.map g.sortKey < other.map g.sortKey := by
  intro g
  have hg : g.WF := wf_ofCalls excluded positions calls
  have hrank := g.byRank_perm g.nodes
  refine ⟨_, sort_of_not_cyclic hg h listing, order_of_not_cyclic hg h, isOrdering_emit hg h,
    fun other hother hne => ?_⟩
  rw [← hrank.length_eq] at hne ⊢
  exact emit_lt_of_ordersAmong h (hrank.nodup_iff.mpr hg.nodup) (pairwise_sortKey_byRank g.nodes)
    (hother.ordersAmong hrank) hne

/-- Two nodes at one position, one at a negative position and one without any; two of them have to
wait. -/
theorem sort_lt_every_other_ties :
    let g := ofCalls ["str"] (.ofList [("b", 2), ("a", 2), ("c", -1)])
      [.edge "c" "z", .node "b", .edge "b" "str", .edge "a" "b"]
    ¬g.Cyclic ∧ ∃ l, g.sort .byName = some (.ok l) ∧ g.order = .ok l ∧ g.IsOrdering l ∧
      ∀ other, g.IsOrdering other → other ≠ l → l.map g.sortKey < other.map g.sortKey := by
  intro g
  have hg : g.WF := wf_ofCalls _ _ _
  have hacyclic : ¬g.Cyclic :=
    ((holds_rows hg .byName).findCycle_eq_none_iff hg).mp (by decide +kernel)
  exact ⟨hacyclic, sort_lt_every_other _ _ _ .byName hacyclic⟩

end SchemaModels.DependencyGraph
