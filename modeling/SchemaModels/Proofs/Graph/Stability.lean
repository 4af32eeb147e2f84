import SchemaModels.Proofs.Graph.Order

/-! # Orders that stay as they are

Names that increase in rank, none of which depends on a later one, are their own dependency order: in
each round of the loop, the first name that is left waits for nothing. -/

namespace SchemaModels.DependencyGraph

variable {g : DependencyGraph} {names : List String}

/-! ## The loop -/

/-- If no name depends on itself or on a later one, then the loop emits the names as they stand. -/
theorem emit_eq_self (hnodup : names.Nodup) (hself : ∀ n, n ∉ g.dependencies n)
    (h : names.Pairwise fun a b => b ∉ g.dependencies a) :
    g.emit names.length names = names := by
  -- the first name is the first that is ready, and when it has come the others wait among themselves
  induction names with
  | nil => rfl
  | cons n names ih =>
    obtain ⟨hn, hnodup⟩ := List.nodup_cons.mp hnodup
    obtain ⟨hlater, h⟩ := List.pairwise_cons.mp h
    have hready : g.readyAmong (n :: names) n = true := by
      refine readyAmong_iff.mpr fun d hd hmem => ?_
      rcases List.mem_cons.mp hmem with rfl | hmem
      · exact hself d hd
      · exact hlater d hmem hd
    have hleft : (n :: names).filter (· != n) = names := by
      rw [List.filter_cons_of_neg (by simp)]
      refine List.filter_eq_self.mpr fun m hm => ?_
      exact bne_iff_ne.mpr fun heq => hn (heq ▸ hm)
    rw [List.length_cons, emit, List.find?_cons_of_pos hready]
    exact congrArg (List.cons n) (hleft.symm ▸ ih hnodup h)

/-- Nodes that increase in rank, none of which depends on a later one, are their own order. -/
theorem order_of_pairwise (hg : g.WF) (hacyclic : ¬g.Cyclic) (hperm : names.Perm g.nodes)
    (hrank : names.Pairwise fun a b => (g.rank a).key ≤ (g.rank b).key)
    (h : names.Pairwise fun a b => b ∉ g.dependencies a) : g.order = .ok names := by
  have hself : ∀ n, n ∉ g.dependencies n := fun n hn => hacyclic ⟨n, .single hn⟩
  have hnodup : names.Nodup := hperm.nodup_iff.mpr hg.nodup
  rw [order_of_not_cyclic hg hacyclic, byRank_eq_of_perm hperm hrank, ← hperm.length_eq,
    emit_eq_self hnodup hself h]

/-- No node of an ordering depends on a later one. -/
theorem IsOrdering.pairwise {order : List String} (hg : g.WF) (h : g.IsOrdering order) :
    order.Pairwise fun a b => b ∉ g.dependencies a := by
  have hnodup : order.Nodup := h.perm.nodup_iff.mpr hg.nodup
  have hlater : ∀ before n after, order = before ++ n :: after →
      ∀ d ∈ after, d ∉ g.dependencies n := by
    intro before n after hsplit d hd hdep
    have hbefore := h.dependencies_before hsplit d hdep
    rw [hsplit] at hnodup
    exact List.disjoint_of_nodup_append hnodup hbefore (List.mem_cons_of_mem n hd)
  clear h hnodup
  induction order with
  | nil => exact .nil
  | cons n order ih =>
    refine List.pairwise_cons.mpr ⟨hlater [] n order rfl, ih fun before m after hsplit => ?_⟩
    exact hlater (n :: before) m after (congrArg (List.cons n) hsplit)

end SchemaModels.DependencyGraph
