import Mathlib.Order.WellFoundedSet
import SchemaModels.Proofs.Graph.Rank
import SchemaModels.Proofs.Graph.Sorter

/-! # The dependency order

The order is an ordering of the nodes (`IsOrdering`), and there is one exactly if no dependencies form
a cycle; what is reported in its place is such a cycle. This holds however the names on which a node
depends are listed.

The loop is followed through the nodes that are left, which are kept by rank. When a name is taken from
the heap, the heap holds exactly the nodes that could come next. So it is not empty as long as nodes are
left, and the first of these that could come is taken (`emit`). -/

namespace SchemaModels.DependencyGraph

variable {g : DependencyGraph} {left : List String}

/-- The nodes in some order, each after those on which it depends. -/
structure IsOrdering (g : DependencyGraph) (order : List String) : Prop where
  perm : order.Perm g.nodes
  dependencies_before : ∀ {before n after}, order = before ++ n :: after →
    ∀ d ∈ g.dependencies n, d ∈ before

/-! ## The first name that could come -/

/-- Of the names that are left, the first that depends on none of them comes, `count` times. -/
def emit (g : DependencyGraph) : (count : Nat) → (left : List String) → List String
  | 0, _ => []
  | count + 1, left =>
    match left.find? (g.readyAmong left) with
    | none => []
    | some n => n :: g.emit count (left.filter (· != n))

/-- Without a cycle, some name of a list depends on none of the list. -/
theorem exists_ready (h : ¬g.Cyclic) (hne : left ≠ []) :
    ∃ n ∈ left, ∀ d ∈ g.dependencies n, d ∉ left := by
  let below (d n : String) : Prop := Relation.TransGen g.DependsOn n d
  have : IsStrictOrder String below :=
    { irrefl := fun n hn => h ⟨n, hn⟩
      trans := fun _ _ _ hab hbc => hbc.trans hab }
  have hwf := Set.wellFoundedOn_iff.mp ((List.finite_toSet left).wellFoundedOn (r := below))
  obtain ⟨n, hn, hmin⟩ := hwf.has_min {n | n ∈ left} (List.exists_mem_of_ne_nil left hne)
  exact ⟨n, hn, fun d hd hmem => hmin d hmem ⟨.single hd, hmem, hn⟩⟩

theorem find?_readyAmong (h : ¬g.Cyclic) (hne : left ≠ []) :
    ∃ n, left.find? (g.readyAmong left) = some n := by
  obtain ⟨n, hn, hready⟩ := exists_ready h hne
  exact Option.isSome_iff_exists.mp
    (List.find?_isSome.mpr ⟨n, hn, readyAmong_iff.mpr hready⟩)

/-- What comes first has the least key of all that could come, if names stand by key. -/
theorem key_le_of_find? {κ : Type} [Preorder κ] {key : String → κ} {p : String → Bool}
    {first n : String} (hsorted : left.Pairwise fun a b => key a ≤ key b)
    (hfirst : left.find? p = some first) (hn : n ∈ left) (hp : p n = true) : key first ≤ key n := by
  obtain ⟨-, earlier, later, rfl, hearlier⟩ := List.find?_eq_some_iff_append.mp hfirst
  rcases List.mem_append.mp hn with hmem | hmem
  · have hnot := hearlier n hmem
    rw [hp] at hnot
    exact absurd hnot (by simp)
  · rcases List.mem_cons.mp hmem with rfl | hmem
    · exact le_rfl
    · exact (List.pairwise_cons.mp (List.pairwise_append.mp hsorted).2.1).1 n hmem

/-- All names that are left come, each after those among them on which it depends. -/
theorem emit_perm (h : ¬g.Cyclic) (hnodup : left.Nodup) :
    (g.emit left.length left).Perm left ∧
      ∀ before n after, g.emit left.length left = before ++ n :: after →
        ∀ d ∈ g.dependencies n, d ∈ left → d ∈ before := by
  -- by induction on how many names are left: each round leaves one less
  induction hlen : left.length generalizing left with
  | zero =>
    obtain rfl := List.length_eq_zero_iff.mp hlen
    exact ⟨.refl _, fun before n after hsplit => absurd hsplit (by simp [emit])⟩
  | succ count ih =>
    have hne : left ≠ [] := by
      rintro rfl
      simp at hlen
    obtain ⟨first, hfirst⟩ := find?_readyAmong h hne
    have hmem : first ∈ left := List.mem_of_find?_eq_some hfirst
    have hready := readyAmong_iff.mp (List.find?_some hfirst)
    have hperm := perm_cons_filter hnodup hmem
    have hcount : (left.filter (· != first)).length = count :=
      Nat.succ.inj ((length_filter_ne hnodup hmem).trans hlen)
    obtain ⟨ihperm, ihbefore⟩ := ih (hnodup.filter _) hcount
    rw [emit, hfirst]
    refine ⟨(ihperm.cons first).trans hperm, fun before n after hsplit d hd hdleft => ?_⟩
    cases before with
    | nil =>
      obtain ⟨rfl, -⟩ := List.cons.inj hsplit
      exact absurd hdleft (hready d hd)
    | cons b before =>
      obtain ⟨rfl, hrest⟩ := List.cons.inj hsplit
      by_cases hdb : d = first
      · exact hdb ▸ List.mem_cons_self
      · refine List.mem_cons_of_mem _ (ihbefore before n after hrest d hd ?_)
        exact List.mem_filter.mpr ⟨hdleft, by simpa using hdb⟩

theorem isOrdering_emit (hg : g.WF) (h : ¬g.Cyclic) :
    g.IsOrdering (g.emit g.nodes.length (g.byRank g.nodes)) := by
  have hrank := g.byRank_perm g.nodes
  obtain ⟨hperm, hbefore⟩ := emit_perm h (hrank.nodup_iff.mpr hg.nodup)
  rw [← hrank.length_eq]
  refine ⟨hperm.trans hrank, fun hsplit d hd => hbefore _ _ _ hsplit d hd ?_⟩
  exact hrank.mem_iff.mpr (hg.target (mem_dependencies.mp hd))

/-! ## The loop -/

theorem mapM'_eq_some {α β : Type} {f : α → Option β} {h : α → β} {l : List α}
    (hf : ∀ x ∈ l, f x = some (h x)) : l.mapM' f = some (l.map h) := by
  induction l with
  | nil => rfl
  | cons x l ih =>
    rw [List.mapM'_cons, hf x List.mem_cons_self, ih fun y hy => hf y (List.mem_cons_of_mem x hy)]
    rfl

namespace Loop

variable {rank : String → Option Rank} {l l' : Loop}

/-- Where the loop stands when some nodes are left: the heap has the ranks of the names that the sorter
has passed out. -/
def At (g : DependencyGraph) (left : List String) (l : Loop) : Prop :=
  ∃ out, g.Stage left out l.sorter ∧ l.heap.ranks.Perm (out.map g.rank)

/-- One round. The heap holds exactly the nodes that could come next, and the first of these comes. -/
theorem exists_step (hg : g.WF) (hrank : ∀ n ∈ g.nodes, rank n = some (g.rank n)) (hrest : g.Rest left)
    (hsorted : left.Pairwise fun a b => (g.rank a).key ≤ (g.rank b).key) (h : l.At g left)
    {first : String} (hfirst : left.find? (g.readyAmong left) = some first) :
    ∃ l', l.step rank = some l' ∧ l'.order = l.order ++ [first] ∧
      l'.At g (left.filter (· != first)) := by
  obtain ⟨out, hstage, hheap⟩ := h
  obtain ⟨taken, htaken, hnone, hstage'⟩ := hstage.takeReady hrest
  have hranks : l.sorter.ready.mapM' rank = some (l.sorter.ready.map g.rank) :=
    mapM'_eq_some fun n hn =>
      hrank n (hrest.nodes n (hstage.mem_ready (List.mem_append_right out hn)).1)
  have hpushed : ((l.sorter.ready.map g.rank).foldl Heap.push l.heap).ranks.Perm
      ((out ++ l.sorter.ready).map g.rank) := by
    rw [List.map_append]
    exact (Heap.perm_foldl_push _ _).trans (hheap.append_right _)
  have hmem : first ∈ out ++ l.sorter.ready :=
    hstage.ready.mem_iff.mpr
      (List.mem_filter.mpr ⟨List.mem_of_find?_eq_some hfirst, List.find?_some hfirst⟩)
  have hfirstrank := hpushed.mem_iff.mpr (List.mem_map_of_mem hmem)
  obtain ⟨least, rest, hpop, hpopped, hleast⟩ := Heap.exists_pop (List.ne_nil_of_mem hfirstrank)
  obtain rfl : g.rank first = least := by
    obtain ⟨n, hn, rfl⟩ := List.mem_map.mp
      (hpushed.mem_iff.mp (hpopped.mem_iff.mpr List.mem_cons_self))
    obtain ⟨hnleft, hnready⟩ := hstage.mem_ready hn
    exact Rank.key_injective
      (le_antisymm (key_le_of_find? hsorted hfirst hnleft hnready) (hleast _ hfirstrank))
  obtain ⟨finished, hfinished, hstage''⟩ := hstage'.finish hg hrest hnone hmem
  refine ⟨⟨finished, rest, l.order ++ [first]⟩, ?_, rfl, _, hstage'', ?_⟩
  · simp [step, htaken, hranks, hpop, hfinished]
  · have herase := (List.perm_cons_erase hmem).map g.rank
    exact (hpopped.symm.trans (hpushed.trans herase)).cons_inv

theorem run_of_step (hactive : l.sorter.isActive = true) (hstep : l.step rank = some l') :
    l.run rank = l'.run rank := by
  rw [run, if_pos hactive]
  split
  case h_1 next hnext =>
    rw [hstep] at hnext
    cases hnext
    rfl
  case h_2 hnone =>
    rw [hstep] at hnone
    cases hnone

/-- The whole loop: it comes to an end, with the names that are left in the order in which each is the
first that could come. -/
theorem run_eq (hg : g.WF) (hacyclic : ¬g.Cyclic) (hrank : ∀ n ∈ g.nodes, rank n = some (g.rank n))
    (hrest : g.Rest left) (hsorted : left.Pairwise fun a b => (g.rank a).key ≤ (g.rank b).key)
    (h : l.At g left) : l.run rank = some (l.order ++ g.emit left.length left) := by
  induction hlen : left.length generalizing left l with
  | zero =>
    obtain rfl := List.length_eq_zero_iff.mp hlen
    obtain ⟨out, hstage, -⟩ := h
    rw [run, if_neg (mt hstage.isActive_iff.mp (by simp)), emit, List.append_nil]
  | succ count ih =>
    have hne : left ≠ [] := by
      rintro rfl
      simp at hlen
    obtain ⟨first, hfirst⟩ := find?_readyAmong hacyclic hne
    have hmem := List.mem_of_find?_eq_some hfirst
    have hready := List.find?_some hfirst
    have hactive : l.sorter.isActive = true := by
      obtain ⟨out, hstage, -⟩ := h
      exact hstage.isActive_iff.mpr ⟨first, hmem, hready⟩
    have hcount : (left.filter (· != first)).length = count :=
      Nat.succ.inj ((length_filter_ne hrest.nodup hmem).trans hlen)
    obtain ⟨l', hstep, horder, hnext⟩ := exists_step hg hrank hrest hsorted h hfirst
    rw [run_of_step hactive hstep, ih (hrest.filter hready) (hsorted.filter _) hnext hcount, horder,
      emit, hfirst, List.append_assoc, List.singleton_append]

end Loop

/-! ## Orders and cycles -/

section

variable {s : Sorter} {rank : String → Option Rank}

theorem sortBy_of_not_cyclic (hg : g.WF) (h : ¬g.Cyclic)
    (hrank : ∀ n ∈ g.nodes, rank n = some (g.rank n)) (hs : g.Holds s) :
    sortBy rank s = some (.ok (g.emit g.nodes.length (g.byRank g.nodes))) := by
  have hperm := g.byRank_perm g.nodes
  have hrun := Loop.run_eq (l := { sorter := s.prepare }) hg h hrank (.of_perm hg hperm)
    (pairwise_byRank g.nodes) ⟨[], hs.stage hg hperm, .refl _⟩
  rw [sortBy, (hs.findCycle_eq_none_iff hg).mpr h]
  change (Loop.run rank { sorter := s.prepare }).map Except.ok = _
  rw [hrun, hperm.length_eq]
  rfl

theorem sortBy_of_cyclic (rank : String → Option Rank) (hg : g.WF) (h : g.Cyclic) (hs : g.Holds s) :
    ∃ cycle, s.findCycle = some cycle ∧ sortBy rank s = some (.error cycle) ∧ g.IsCycle cycle := by
  obtain ⟨cycle, hcycle⟩ : ∃ cycle, s.findCycle = some cycle :=
    Option.ne_none_iff_exists'.mp fun hnone => (hs.findCycle_eq_none_iff hg).mp hnone h
  exact ⟨cycle, hcycle, by rw [sortBy, hcycle], hs.isCycle hg hcycle⟩

end

theorem holds_rows (hg : g.WF) (listing : Listing) : g.Holds (.ofRows (g.rows listing)) :=
  holds_ofRows hg fun n _ => namesByKey_perm listing (g.dependencies n)

theorem sort_of_not_cyclic (hg : g.WF) (h : ¬g.Cyclic) (listing : Listing) :
    g.sort listing = some (.ok (g.emit g.nodes.length (g.byRank g.nodes))) :=
  sortBy_of_not_cyclic hg h (fun _ _ => rfl) (holds_rows hg listing)

theorem sort_of_cyclic (hg : g.WF) (h : g.Cyclic) (listing : Listing) :
    ∃ cycle, g.sort listing = some (.error cycle) ∧ g.IsCycle cycle := by
  obtain ⟨cycle, -, hsort, hcycle⟩ := sortBy_of_cyclic _ hg h (holds_rows hg listing)
  exact ⟨cycle, hsort, hcycle⟩

/-- Neither does the sorter refuse anything, nor is a name taken from an empty heap. -/
theorem sort_byName (hg : g.WF) : g.sort .byName = some g.order := by
  by_cases h : g.Cyclic
  · obtain ⟨cycle, hsort, -⟩ := sort_of_cyclic hg h .byName
    rw [order, hsort, Option.getD_some]
  · rw [order, sort_of_not_cyclic hg h, Option.getD_some]

/-- If no two names are at the same position then there is one outcome, however sets are listed. -/
theorem sort_eq_order (hg : g.WF) (h : g.DistinctPositions) (listing : Listing) :
    g.sort listing = some g.order := by
  have hrows : g.rows listing = g.rows .byName := by
    refine List.map_congr_left fun n _ => congrArg (Prod.mk n) ?_
    exact namesByKey_listing h (fun d hd => hg.target (mem_dependencies.mp hd)) listing .byName
  rw [← sort_byName hg, sort, sort, hrows]

theorem order_of_not_cyclic (hg : g.WF) (h : ¬g.Cyclic) :
    g.order = .ok (g.emit g.nodes.length (g.byRank g.nodes)) :=
  Option.some.inj ((sort_byName hg).symm.trans (sort_of_not_cyclic hg h .byName))

theorem order_of_cyclic (hg : g.WF) (h : g.Cyclic) :
    ∃ cycle, g.order = .error cycle ∧ g.IsCycle cycle := by
  obtain ⟨cycle, hsort, hcycle⟩ := sort_of_cyclic hg h .byName
  exact ⟨cycle, Option.some.inj ((sort_byName hg).symm.trans hsort), hcycle⟩

theorem order_eq_ok_iff (hg : g.WF) : (∃ l, g.order = .ok l) ↔ ¬g.Cyclic := by
  refine ⟨?_, fun h => ⟨_, order_of_not_cyclic hg h⟩⟩
  rintro ⟨l, hl⟩ hcyclic
  obtain ⟨cycle, hcycle, -⟩ := order_of_cyclic hg hcyclic
  exact nomatch hl.symm.trans hcycle

theorem order_eq_error_iff (hg : g.WF) : (∃ cycle, g.order = .error cycle) ↔ g.Cyclic := by
  refine ⟨?_, fun h => (order_of_cyclic hg h).imp fun _ => And.left⟩
  rintro ⟨cycle, hcycle⟩
  by_contra h
  exact nomatch hcycle.symm.trans (order_of_not_cyclic hg h)

theorem isOrdering_of_order (hg : g.WF) {l : List String} (hl : g.order = .ok l) :
    g.IsOrdering l := by
  have h := (order_eq_ok_iff hg).mp ⟨l, hl⟩
  obtain rfl : g.emit g.nodes.length (g.byRank g.nodes) = l := by
    simpa [order_of_not_cyclic hg h] using hl
  exact isOrdering_emit hg h

theorem isCycle_of_sort (hg : g.WF) {listing : Listing} {cycle : List String}
    (h : g.sort listing = some (.error cycle)) : g.IsCycle cycle := by
  by_cases hcyclic : g.Cyclic
  · obtain ⟨found, hfound, hcycle⟩ := sort_of_cyclic hg hcyclic listing
    cases hfound.symm.trans h
    exact hcycle
  · cases (sort_of_not_cyclic hg hcyclic listing).symm.trans h

/-- However a graph was built, and however sets are listed, sorting it comes to something: to an order
exactly if no dependencies form a cycle, and to an error exactly if some do. An order holds each node once
and nothing else, each after all nodes on which it depends. -/
theorem sort_ok_iff_not_cyclic (excluded : List String) (positions : Table String Int)
    (calls : List Call) (listing : Listing) :
    let g := ofCalls excluded positions calls
    g.sort .byName = some g.order ∧
      ∃ r, g.sort listing = some r ∧
        ((∃ l, r = .ok l) ↔ ¬g.Cyclic) ∧ ((∃ cycle, r = .error cycle) ↔ g.Cyclic) ∧
        ∀ l, r = .ok l → l.Nodup ∧ (∀ n, n ∈ l ↔ n ∈ g.nodes) ∧
          ∀ before n after, l = before ++ n :: after → ∀ d ∈ g.dependencies n, d ∈ before := by
  intro g
  have hg : g.WF := wf_ofCalls excluded positions calls
  refine ⟨sort_byName hg, ?_⟩
  by_cases h : g.Cyclic
  · obtain ⟨cycle, hsort, -⟩ := sort_of_cyclic hg h listing
    refine ⟨_, hsort, ?_, iff_of_true ⟨cycle, rfl⟩ h, fun l hl => nomatch hl⟩
    exact iff_of_false (fun ⟨l, hl⟩ => nomatch hl) (not_not.mpr h)
  · refine ⟨_, sort_of_not_cyclic hg h listing, iff_of_true ⟨_, rfl⟩ h, ?_, ?_⟩
    · exact iff_of_false (fun ⟨cycle, hcycle⟩ => nomatch hcycle) h
    · rintro l ⟨⟩
      have hl := isOrdering_emit hg h
      exact ⟨hl.perm.nodup_iff.mpr hg.nodup, fun n => hl.perm.mem_iff,
        fun before n after hsplit => hl.dependencies_before hsplit⟩

/-! ## The cycle in place of an order -/

theorem IsCycle.getElem_mem_dependencies {cycle : List String} (h : g.IsCycle cycle) {i : Nat}
    (hi : i + 1 < cycle.length) : cycle[i] ∈ g.dependencies cycle[i + 1] :=
  List.isChain_iff_getElem.mp h.chain i hi

/-- However a graph was built, and however sets are listed, what stands in place of an order is a real
cycle `c₀, …, cₖ`: it comes back to its start, its names before that are different nodes, and each name is
a direct dependency of the next one. -/
theorem sort_error_is_cycle (excluded : List String) (positions : Table String Int)
    (calls : List Call) (listing : Listing) (cycle : List String)
    (h : (ofCalls excluded positions calls).sort listing = some (.error cycle)) :
    let g := ofCalls excluded positions calls
    ∃ k, 1 ≤ k ∧ cycle.length = k + 1 ∧ cycle[0]? = cycle[k]? ∧ (cycle.take k).Nodup ∧
      (∀ n ∈ cycle.take k, n ∈ g.nodes) ∧
      ∀ i < k, ∃ a b, cycle[i]? = some a ∧ cycle[i + 1]? = some b ∧ a ∈ g.dependencies b := by
  intro g
  have hcycle : g.IsCycle cycle := isCycle_of_sort (wf_ofCalls excluded positions calls) h
  have htwo := hcycle.two_le
  obtain ⟨k, hk⟩ : ∃ k, cycle.length = k + 1 := ⟨cycle.length - 1, by omega⟩
  have htake : cycle.take k = cycle.dropLast := by
    rw [List.dropLast_eq_take, hk, Nat.add_sub_cancel]
  refine ⟨k, by omega, hk, ?_, ?_, ?_, ?_⟩
  · rw [← List.head?_eq_getElem?, hcycle.closed, List.getLast?_eq_getElem?, hk, Nat.add_sub_cancel]
  · rw [htake]
    exact hcycle.nodup
  · exact fun n hn => hcycle.nodes n (List.mem_of_mem_take hn)
  · intro i hi
    have hnext : i + 1 < cycle.length := by omega
    exact ⟨cycle[i], cycle[i + 1], List.getElem?_eq_getElem _, List.getElem?_eq_getElem _,
      hcycle.getElem_mem_dependencies hnext⟩

/-- Two names at one position, each on a cycle. Which of the cycles is found depends on how the names on
which `a` depends are listed. -/
theorem sort_error_is_cycle_tied :
    let g := ofCalls [] (.ofList [("x", 0), ("y", 0)])
      [.edge "a" "x", .edge "a" "y", .edge "x" "z", .edge "z" "x", .edge "y" "y"]
    let asGiven : Listing := ⟨id, List.Perm.refl⟩
    let reversed : Listing := ⟨List.reverse, List.reverse_perm⟩
    let cycle := ["x", "z", "x"]
    g.sort reversed = some (.error ["y", "y"]) ∧ g.sort asGiven = some (.error cycle) ∧
      ∃ k, 1 ≤ k ∧ cycle.length = k + 1 ∧ cycle[0]? = cycle[k]? ∧ (cycle.take k).Nodup ∧
        (∀ n ∈ cycle.take k, n ∈ g.nodes) ∧
        ∀ i < k, ∃ a b, cycle[i]? = some a ∧ cycle[i + 1]? = some b ∧ a ∈ g.dependencies b := by
  intro g asGiven reversed cycle
  have hrows (listing : Listing) (h : ∀ n ∈ g.nodes,
      ((listing.list (g.dependencies n)).map g.rank).Pairwise fun a b => a.keyLe b = true) :
      g.rows listing = g.nodes.map fun n => (n, listing.list (g.dependencies n)) := by
    refine List.map_congr_left fun n hn => congrArg (Prod.mk n) ?_
    rw [namesByKey_of_pairwise (h n hn), List.map_map]
    exact List.map_id'' (fun _ => name_rank) _
  have hreversed : g.sort reversed = some (.error ["y", "y"]) := by
    rw [sort, hrows reversed (by decide +kernel)]
    decide +kernel
  have hgiven : g.sort asGiven = some (.error cycle) := by
    rw [sort, hrows asGiven (by decide +kernel)]
    decide +kernel
  exact ⟨hreversed, hgiven, sort_error_is_cycle _ _ _ _ _ hgiven⟩

end SchemaModels.DependencyGraph
