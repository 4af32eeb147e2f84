import SchemaModels.Graph.Sorter
import SchemaModels.Proofs.Graph.Cycle

/-! # The sorter of a graph

A sorter to which the nodes of a graph were added holds the graph (`DependencyGraph.Holds`), so the cycle
that it finds is one of the graph. While names come, where a sorter stands is determined by the nodes
that are left and by those of them that were passed out (`DependencyGraph.Stage`): what is passed out or
ready is exactly what could come next, and everything else waits for as many names as are left of those
on which it depends. So no step is refused. -/

namespace SchemaModels

namespace Sorter

variable {s s' : Sorter} {n name : String} {names others : List String}

/-! ## Names that are added -/

theorem get?_of_mem (h : n ∈ s.names) : s.entries.get? n = some (s.entry n) := by
  obtain ⟨e, he⟩ := Table.mem_keys_iff.mp h
  rw [he, entry_of_get? he]

theorem entry_foldl_follow :
    (others.foldl (follow name) s).entry n =
      { s.entry n with
        successors := (s.entry n).successors ++ List.replicate (others.count n) name } := by
  induction others generalizing s with
  | nil => simp
  | cons other others ih =>
    rw [List.foldl_cons, ih, follow, entry_put]
    by_cases hn : n = other
    · subst hn
      simp [List.replicate_succ]
    · rw [if_neg hn, List.count_cons_of_ne (Ne.symm hn)]

theorem names_foldl_follow :
    (others.foldl (follow name) s).names = Distinct.addAll s.names others := by
  induction others generalizing s with
  | nil => rfl
  | cons other others ih =>
    rw [List.foldl_cons, ih, follow, names_put]
    rfl

theorem names_add : (s.add name others).names = Distinct.addAll s.names (name :: others) := by
  rw [add, names_foldl_follow, names_put]
  rfl

/-- The last row is added to a sorter of the others. -/
theorem ofRows_concat (rows : List (String × List String)) (row : String × List String) :
    ofRows (rows ++ [row]) = (ofRows rows).add row.1 row.2 := by
  rw [ofRows, List.foldl_append, ← ofRows, List.foldl_cons, List.foldl_nil]

/-- Each name waits for the others of its row, and is followed by the names in whose rows it is. -/
theorem entry_ofRows {row : String → List String} (hnodup : names.Nodup)
    (hrow : ∀ m ∈ names, (row m).Nodup) :
    (ofRows (names.map fun m => (m, row m))).entry n =
      ⟨.waiting (if n ∈ names then (row n).length else 0), names.filter fun m => (row m).contains n⟩ := by
  induction names using List.reverseRecOn with
  | nil => rfl
  | append_singleton names m ih =>
    obtain ⟨hnames, -, hm⟩ := List.nodup_append.mp hnodup
    have hnew : m ∉ names := fun hmem => hm m hmem m (List.mem_singleton_self m) rfl
    have hrest := ih hnames fun m' hm' => hrow m' (List.mem_append_left _ hm')
    have hcount : List.replicate ((row m).count n) m = [m].filter fun m => (row m).contains n := by
      have hnodup := hrow m (List.mem_append_right _ (List.mem_singleton_self m))
      rw [hnodup.count]
      by_cases hn : n ∈ row m
      · simp [hn]
      · simp [hn]
    rw [List.map_append, List.map_singleton, ofRows_concat, add, entry_foldl_follow, entry_put, hcount,
      List.filter_append]
    by_cases hn : n = m
    · subst hn
      rw [if_pos rfl, hrest, if_neg hnew, if_pos (by simp)]
      simp [Entry.await]
    · rw [if_neg hn, hrest]
      simp [hn]

theorem mem_names_ofRows {rows : List (String × List String)} :
    n ∈ (ofRows rows).names ↔ ∃ row ∈ rows, n = row.1 ∨ n ∈ row.2 := by
  induction rows using List.reverseRecOn with
  | nil => simp [ofRows, names, Table.keys, EmptyCollection.emptyCollection]
  | append_singleton rows row ih =>
    rw [ofRows_concat, names_add, Distinct.mem_addAll, ih]
    simp [or_and_right, exists_or]

theorem nodup_names_ofRows (rows : List (String × List String)) : (ofRows rows).names.Nodup := by
  induction rows using List.reverseRecOn with
  | nil => exact List.nodup_nil
  | append_singleton rows row ih =>
    rw [ofRows_concat, names_add]
    exact Distinct.nodup_addAll ih _

theorem counts_foldl_follow :
    (others.foldl (follow name) s).passedOut = s.passedOut ∧
      (others.foldl (follow name) s).finished = s.finished := by
  induction others generalizing s with
  | nil => exact ⟨rfl, rfl⟩
  | cons other others ih => exact ih

theorem counts_ofRows (rows : List (String × List String)) :
    (ofRows rows).passedOut = (ofRows rows).finished := by
  induction rows using List.reverseRecOn with
  | nil => rfl
  | append_singleton rows row ih =>
    rw [ofRows_concat, add, counts_foldl_follow.1, counts_foldl_follow.2]
    exact ih

/-! ## Steps for several names -/

/-- Some names have made progress, and nothing else has changed but what is ready. -/
structure Moved (s s' : Sorter) (moved : List String) (progress : String → Progress) : Prop where
  names : s'.names = s.names
  entry : ∀ n, s'.entry n = if n ∈ moved then { s.entry n with progress := progress n } else s.entry n
  passedOut : s'.passedOut = s.passedOut
  finished : s'.finished = s.finished

namespace Moved

variable {progress : String → Progress}

theorem refl (s : Sorter) (progress : String → Progress) : s.Moved s [] progress :=
  ⟨rfl, fun _ => by rw [if_neg List.not_mem_nil], rfl, rfl⟩

theorem move (progress : String → Progress) (hn : n ∈ s.names) :
    s.Moved (s.move n (progress n)) [n] progress where
  names := names_move hn
  entry m := by
    rw [entry_move]
    by_cases hm : m = n
    · simp [hm]
    · simp [hm]
  passedOut := rfl
  finished := rfl

theorem cons {next : Sorter} (hnew : n ∉ names) (h : s.Moved next [n] progress)
    (h' : next.Moved s' names progress) : s.Moved s' (n :: names) progress where
  names := h'.names.trans h.names
  entry m := by
    rw [h'.entry, h.entry]
    by_cases hm : m = n
    · simp [hm, hnew]
    · simp [hm]
  passedOut := h'.passedOut.trans h.passedOut
  finished := h'.finished.trans h.finished

end Moved

/-- Names that wait for nothing can be passed out. -/
theorem exists_foldlM_pass (hnodup : names.Nodup)
    (h : ∀ n ∈ names, n ∈ s.names ∧ (s.entry n).progress = .waiting 0) :
    ∃ s', names.foldlM pass s = some s' ∧ s.Moved s' names fun _ => .out := by
  induction names generalizing s with
  | nil => exact ⟨s, rfl, .refl s _⟩
  | cons n names ih =>
    obtain ⟨hnew, hnodup⟩ := List.nodup_cons.mp hnodup
    obtain ⟨hn, hwaiting⟩ := h n List.mem_cons_self
    have hmove : s.Moved (s.move n .out) [n] fun _ => .out := .move (fun _ => .out) hn
    have hpass : s.pass n = some (s.move n .out) := by
      rw [pass, get?_of_mem hn, Option.bind_eq_bind, Option.bind_some, if_pos hwaiting]
      rfl
    obtain ⟨s', hs', hmoved⟩ := ih (s := s.move n .out) hnodup fun m hm => by
      have hmn : m ≠ n := fun heq => hnew (heq ▸ hm)
      rw [hmove.names, hmove.entry, if_neg (by simpa using hmn)]
      exact h m (List.mem_cons_of_mem n hm)
    refine ⟨s', ?_, .cons hnew hmove hmoved⟩
    rw [List.foldlM_cons, hpass]
    exact hs'

/-- Names that wait for others can wait for one less, and are ready if that was the last. -/
theorem exists_foldlM_release {count : String → Nat} (hnodup : names.Nodup)
    (h : ∀ n ∈ names, n ∈ s.names ∧ (s.entry n).progress = .waiting (count n + 1)) :
    ∃ s', names.foldlM release s = some s' ∧ s.Moved s' names (fun n => .waiting (count n)) ∧
      s'.ready = s.ready ++ names.filter (count · == 0) := by
  induction names generalizing s with
  | nil => exact ⟨s, rfl, .refl s _, (List.append_nil _).symm⟩
  | cons n names ih =>
    obtain ⟨hnew, hnodup⟩ := List.nodup_cons.mp hnodup
    obtain ⟨hn, hwaiting⟩ := h n List.mem_cons_self
    obtain ⟨next, hnext, hmove, hready⟩ : ∃ next, s.release n = some next ∧
        s.Moved next [n] (fun n => .waiting (count n)) ∧
        next.ready = s.ready ++ [n].filter (count · == 0) := by
      have hmove := Moved.move (fun n => .waiting (count n)) hn
      rw [release, get?_of_mem hn, Option.bind_eq_bind, Option.bind_some, hwaiting]
      refine ⟨_, rfl, ?_⟩
      by_cases hzero : count n = 0
      · rw [if_pos hzero]
        exact ⟨⟨hmove.names, hmove.entry, rfl, rfl⟩, by simp [hzero, Sorter.move, put]⟩
      · rw [if_neg hzero]
        exact ⟨hmove, by simp [hzero, Sorter.move, put]⟩
    obtain ⟨s', hs', hmoved, hready'⟩ := ih (s := next) hnodup fun m hm => by
      have hmn : m ≠ n := fun heq => hnew (heq ▸ hm)
      rw [hmove.names, hmove.entry, if_neg (by simpa using hmn)]
      exact h m (List.mem_cons_of_mem n hm)
    refine ⟨s', ?_, .cons hnew hmove hmoved, ?_⟩
    · rw [List.foldlM_cons, hnext]
      exact hs'
    · rw [hready', hready, List.append_assoc, ← List.filter_append, List.singleton_append]

end Sorter

namespace DependencyGraph

variable {g : DependencyGraph} {s : Sorter} {n : String}

/-! ## A sorter that holds a graph -/

/-- A sorter knows the nodes of a graph: each waits for as many names as it depends on, and is followed by
the nodes that depend on it. -/
structure Holds (g : DependencyGraph) (s : Sorter) : Prop where
  names : s.names.Perm g.nodes
  entry : ∀ n, s.entry n = ⟨.waiting (g.dependencies n).length, g.dependents n⟩
  counts : s.passedOut = s.finished

/-- However the names on which a node depends are listed, the sorter of the rows holds the graph. -/
theorem holds_ofRows (hg : g.WF) {row : String → List String}
    (hrow : ∀ n ∈ g.nodes, (row n).Perm (g.dependencies n)) :
    g.Holds (.ofRows (g.nodes.map fun n => (n, row n))) where
  names := by
    refine (List.perm_ext_iff_of_nodup (Sorter.nodup_names_ofRows _) hg.nodup).mpr fun n => ?_
    rw [Sorter.mem_names_ofRows]
    constructor
    · rintro ⟨_, hmem, hn⟩
      obtain ⟨m, hm, rfl⟩ := List.mem_map.mp hmem
      rcases hn with rfl | hn
      · exact hm
      · exact hg.target (mem_dependencies.mp ((hrow m hm).mem_iff.mp hn))
    · exact fun hn => ⟨_, List.mem_map_of_mem hn, .inl rfl⟩
  entry n := by
    have hnodup : ∀ m ∈ g.nodes, (row m).Nodup :=
      fun m hm => (hrow m hm).nodup_iff.mpr (hg.nodup_dependencies m)
    have hlength : (if n ∈ g.nodes then (row n).length else 0) = (g.dependencies n).length := by
      split
      case isTrue hn => exact (hrow n hn).length_eq
      case isFalse hn => rw [hg.dependencies_eq_nil hn, List.length_nil]
    have hdependents : (g.nodes.filter fun m => (row m).contains n) = g.dependents n := by
      refine List.filter_congr fun m hm => ?_
      rw [Bool.eq_iff_iff, List.contains_iff_mem, List.contains_iff_mem, (hrow m hm).mem_iff,
        mem_dependencies]
      simp
    rw [Sorter.entry_ofRows hg.nodup hnodup, hlength, hdependents]
  counts := Sorter.counts_ofRows _

theorem Holds.findCycle_eq (h : g.Holds s) :
    s.findCycle =
      match s.names.foldlM (Sorter.visit g.dependents s.names.length []) [] with
      | .ok _ => none
      | .error cycle => some cycle := by
  have hnext : (fun name => (s.entry name).successors) = g.dependents := by
    funext n
    rw [h.entry]
  rw [← hnext]
  rfl

theorem Holds.visited (hg : g.WF) (h : g.Holds s) :
    g.Visited [] s.names (s.names.foldlM (Sorter.visit g.dependents s.names.length []) []) :=
  visited_nodes hg (fun _ => h.names.mem_iff.mp) h.names.length_eq.ge

/-- What a sorter that holds a graph reports is a cycle of the graph. -/
theorem Holds.isCycle (hg : g.WF) (h : g.Holds s) {cycle : List String}
    (hcycle : s.findCycle = some cycle) : g.IsCycle cycle := by
  have hvisited := h.visited hg
  rw [h.findCycle_eq] at hcycle
  split at hcycle
  case h_1 => cases hcycle
  case h_2 found hfound =>
    cases hcycle
    rwa [hfound] at hvisited

/-- It reports one exactly if there is one. -/
theorem Holds.findCycle_eq_none_iff (hg : g.WF) (h : g.Holds s) :
    s.findCycle = none ↔ ¬g.Cyclic := by
  constructor
  · intro hnone
    have hvisited := h.visited hg
    rw [h.findCycle_eq] at hnone
    split at hnone
    case h_1 seen hseen =>
      rw [hseen] at hvisited
      exact not_cyclic_of_visited hg (fun n => h.names.mem_iff.mpr) hvisited
    case h_2 => cases hnone
  · intro hacyclic
    cases hcycle : s.findCycle with
    | none => rfl
    | some cycle => exact absurd (h.isCycle hg hcycle).cyclic hacyclic

/-! ## Names that are left -/

theorem perm_cons_filter {names : List String} (hnodup : names.Nodup) (hn : n ∈ names) :
    (n :: names.filter (· != n)).Perm names := by
  rw [← hnodup.erase_eq_filter]
  exact (List.perm_cons_erase hn).symm

theorem length_filter_ne {names : List String} (hnodup : names.Nodup) (hn : n ∈ names) :
    (names.filter (· != n)).length + 1 = names.length :=
  (perm_cons_filter hnodup hn).length_eq

/-- How many of the names that are left a name depends on. -/
def pending (g : DependencyGraph) (left : List String) (n : String) : Nat :=
  ((g.dependencies n).filter left.contains).length

/-- Whether a name depends on none of the names that are left. -/
def readyAmong (g : DependencyGraph) (left : List String) (n : String) : Bool := g.pending left n == 0

section

variable {left : List String} {m : String}

theorem readyAmong_iff : g.readyAmong left n = true ↔ ∀ d ∈ g.dependencies n, d ∉ left := by
  rw [readyAmong, pending, beq_iff_eq, List.length_eq_zero_iff, List.filter_eq_nil_iff]
  simp

/-- What depends on a name waits for one name less when that has come. -/
theorem pending_filter_of_mem (hg : g.WF) (hn : n ∈ left) (hd : n ∈ g.dependencies m) :
    g.pending left m = g.pending (left.filter (· != n)) m + 1 := by
  have hfilter : ((g.dependencies m).filter left.contains).filter (· != n) =
      (g.dependencies m).filter (left.filter (· != n)).contains := by
    rw [List.filter_filter]
    refine List.filter_congr fun d _ => ?_
    rw [Bool.eq_iff_iff]
    simp [and_comm]
  have hperm := perm_cons_filter ((hg.nodup_dependencies m).filter left.contains)
    (List.mem_filter.mpr ⟨hd, List.contains_iff_mem.mpr hn⟩)
  rw [pending, ← hperm.length_eq, hfilter, List.length_cons, pending]

theorem pending_filter_of_not_mem (hd : n ∉ g.dependencies m) :
    g.pending (left.filter (· != n)) m = g.pending left m := by
  rw [pending, pending]
  congr 1
  refine List.filter_congr fun d hmem => ?_
  have hdn : d ≠ n := fun heq => hd (heq ▸ hmem)
  rw [Bool.eq_iff_iff]
  simp [hdn]

end

/-- Nodes on none of which the other nodes depend. -/
structure Rest (g : DependencyGraph) (left : List String) : Prop where
  nodup : left.Nodup
  nodes : ∀ n ∈ left, n ∈ g.nodes
  closed : ∀ n ∈ g.nodes, n ∉ left → g.readyAmong left n = true

theorem Rest.of_perm (hg : g.WF) {left : List String} (h : left.Perm g.nodes) : g.Rest left where
  nodup := h.nodup_iff.mpr hg.nodup
  nodes _ := h.mem_iff.mp
  closed _ hn hleft := absurd (h.mem_iff.mpr hn) hleft

/-- A name that depends on none of those that are left may come. -/
theorem Rest.filter {left : List String} (h : g.Rest left) (hready : g.readyAmong left n = true) :
    g.Rest (left.filter (· != n)) where
  nodup := h.nodup.filter _
  nodes m hm := h.nodes m (List.mem_filter.mp hm).1
  closed m hm hleft := by
    refine readyAmong_iff.mpr fun d hd hmem => ?_
    have hdleft : d ∈ left := (List.mem_filter.mp hmem).1
    by_cases hmn : m = n
    · exact readyAmong_iff.mp hready d (hmn ▸ hd) hdleft
    · have hmleft : m ∉ left := fun hmem => hleft (List.mem_filter.mpr ⟨hmem, by simpa using hmn⟩)
      exact readyAmong_iff.mp (h.closed m hm hmleft) d hd hdleft

/-! ## The stages of a sorter -/

/-- How far a node has come when some are left, of which some were passed out. -/
def progress (g : DependencyGraph) (left out : List String) (n : String) : Progress :=
  if n ∉ left then .done
  else if n ∈ out then .out
  else .waiting (g.pending left n)

section

variable {left out : List String}

theorem progress_of_not_mem (h : n ∉ left) : g.progress left out n = .done := if_pos h

theorem progress_of_mem_out (h : n ∈ left) (hout : n ∈ out) : g.progress left out n = .out := by
  rw [progress, if_neg (not_not.mpr h), if_pos hout]

theorem progress_of_not_mem_out (h : n ∈ left) (hout : n ∉ out) :
    g.progress left out n = .waiting (g.pending left n) := by
  rw [progress, if_neg (not_not.mpr h), if_neg hout]

end

/-! One of the names that could come next comes, out of all of these. -/

section

variable {left out : List String} (hrest : g.Rest left)
  (hout : out.Perm (left.filter (g.readyAmong left))) (hn : n ∈ out)

include hrest hout hn

/-- What depends on the name is left, and waits also for that name. -/
theorem of_mem_dependents {m : String} (hm : m ∈ g.dependents n) :
    n ∈ g.dependencies m ∧ m ∈ left ∧ m ∉ out ∧ m ≠ n := by
  have hmem {m : String} : m ∈ out ↔ m ∈ left ∧ g.readyAmong left m = true :=
    hout.mem_iff.trans List.mem_filter
  have hnleft := (hmem.mp hn).1
  obtain ⟨hmnode, hedge⟩ := mem_dependents.mp hm
  have hdepends := mem_dependencies.mpr hedge
  have hmout : m ∉ out := fun hmout => readyAmong_iff.mp (hmem.mp hmout).2 n hdepends hnleft
  refine ⟨hdepends, ?_, hmout, fun heq => hmout (heq ▸ hn)⟩
  by_contra hmleft
  exact readyAmong_iff.mp (hrest.closed m hmnode hmleft) n hdepends hnleft

theorem progress_next {m : String} (hm : m ∈ g.nodes) :
    g.progress (left.filter (· != n)) (out.erase n) m =
      if m ∈ g.dependents n then .waiting (g.pending (left.filter (· != n)) m)
      else if m = n then .done else g.progress left out m := by
  have hleft' : m ∈ left.filter (· != n) ↔ m ∈ left ∧ m ≠ n := by simp
  split
  case isTrue hdependent =>
    obtain ⟨-, hmleft, hmout, hmn⟩ := of_mem_dependents hrest hout hn hdependent
    exact progress_of_not_mem_out (hleft'.mpr ⟨hmleft, hmn⟩) (mt List.mem_of_mem_erase hmout)
  case isFalse hdependent =>
    split
    case isTrue hmn => exact progress_of_not_mem fun hmem => (hleft'.mp hmem).2 hmn
    case isFalse hmn =>
      have hd : n ∉ g.dependencies m :=
        fun hd => hdependent (mem_dependents.mpr ⟨hm, mem_dependencies.mp hd⟩)
      simp only [progress, hleft', ne_eq, hmn, not_false_eq_true, and_true,
        List.mem_erase_of_ne hmn, pending_filter_of_not_mem hd]

/-- What could come next then: what could before, and what depended on nothing else. -/
theorem perm_next (hg : g.WF) :
    (out.erase n ++ (g.dependents n).filter (g.readyAmong (left.filter (· != n)))).Perm
      ((left.filter (· != n)).filter (g.readyAmong (left.filter (· != n)))) := by
  have hnodup : out.Nodup := hout.nodup_iff.mpr (hrest.nodup.filter _)
  have hmem {m : String} : m ∈ out ↔ m ∈ left ∧ g.readyAmong left m = true :=
    hout.mem_iff.trans List.mem_filter
  have hnodup' : (out.erase n ++
      (g.dependents n).filter (g.readyAmong (left.filter (· != n)))).Nodup := by
    refine (hnodup.erase n).append ((hg.nodup_dependents n).filter _) fun m hm hmem => ?_
    have hmout := (of_mem_dependents hrest hout hn (List.mem_of_mem_filter hmem)).2.2.1
    exact hmout (List.mem_of_mem_erase hm)
  refine (List.perm_ext_iff_of_nodup hnodup' ((hrest.nodup.filter _).filter _)).mpr fun m => ?_
  rw [List.mem_append, hnodup.mem_erase_iff, List.mem_filter, List.mem_filter, List.mem_filter,
    bne_iff_ne]
  constructor
  · rintro (⟨hmn, hm⟩ | ⟨hdependent, hready⟩)
    · obtain ⟨hmleft, hready⟩ := hmem.mp hm
      refine ⟨⟨hmleft, hmn⟩, readyAmong_iff.mpr fun d hd hdleft => ?_⟩
      exact readyAmong_iff.mp hready d hd (List.mem_of_mem_filter hdleft)
    · obtain ⟨-, hmleft, -, hmn⟩ := of_mem_dependents hrest hout hn hdependent
      exact ⟨⟨hmleft, hmn⟩, hready⟩
  · rintro ⟨⟨hmleft, hmn⟩, hready⟩
    by_cases hd : n ∈ g.dependencies m
    · have hedge := mem_dependencies.mp hd
      exact .inr ⟨mem_dependents.mpr ⟨hrest.nodes m hmleft, hedge⟩, hready⟩
    · rw [readyAmong, pending_filter_of_not_mem hd] at hready
      exact .inl ⟨hmn, hmem.mpr ⟨hmleft, hready⟩⟩

end

/-- Where a sorter stands when some nodes of a graph are left, of which it has passed out some. What it
has passed out or is ready to pass out are the nodes that could come next. -/
structure Stage (g : DependencyGraph) (left out : List String) (s : Sorter) : Prop where
  names : ∀ n ∈ g.nodes, n ∈ s.names
  entry : ∀ n ∈ g.nodes, s.entry n = ⟨g.progress left out n, g.dependents n⟩
  ready : (out ++ s.ready).Perm (left.filter (g.readyAmong left))
  counts : s.passedOut = s.finished + out.length

/-- At first all nodes are left, and those are ready that depend on nothing. -/
theorem Holds.stage (hg : g.WF) (h : g.Holds s) {left : List String} (hleft : left.Perm g.nodes) :
    g.Stage left [] s.prepare := by
  have hall (n : String) : g.pending left n = (g.dependencies n).length := by
    refine congrArg List.length (List.filter_eq_self.mpr fun d hd => List.contains_iff_mem.mpr ?_)
    exact hleft.mem_iff.mpr (hg.target (mem_dependencies.mp hd))
  refine ⟨fun n => h.names.mem_iff.mpr, fun n hn => ?_, ?_, h.counts⟩
  · have hprogress : g.progress left [] n = .waiting (g.dependencies n).length := by
      rw [progress_of_not_mem_out (hleft.mem_iff.mpr hn) List.not_mem_nil, hall]
    rw [hprogress]
    exact h.entry n
  · have hready : s.prepare.ready = s.names.filter (g.readyAmong left) := by
      refine List.filter_congr fun n _ => ?_
      rw [h.entry, readyAmong, hall]
      cases g.dependencies n <;> rfl
    rw [List.nil_append, hready]
    exact (h.names.trans hleft.symm).filter _

namespace Stage

variable {left out : List String}

theorem mem_ready (h : g.Stage left out s) (hn : n ∈ out ++ s.ready) :
    n ∈ left ∧ g.readyAmong left n = true :=
  List.mem_filter.mp (h.ready.mem_iff.mp hn)

/-- There is something to do exactly if some name could come next. -/
theorem isActive_iff (h : g.Stage left out s) :
    s.isActive = true ↔ ∃ n ∈ left, g.readyAmong left n = true := by
  have hactive : s.isActive = true ↔ out ++ s.ready ≠ [] := by
    rw [Sorter.isActive, h.counts]
    cases out <;> cases s.ready <;> simp
  rw [hactive, ← List.length_pos_iff, h.ready.length_eq, List.length_pos_iff, ne_eq,
    List.filter_eq_nil_iff]
  simp

/-- The names that are ready can be passed out. -/
theorem takeReady (h : g.Stage left out s) (hrest : g.Rest left) :
    ∃ s', s.takeReady = some (s.ready, s') ∧ s'.ready = [] ∧ g.Stage left (out ++ s.ready) s' := by
  have hnodup : (out ++ s.ready).Nodup := h.ready.nodup_iff.mpr (hrest.nodup.filter _)
  have hready : ∀ n ∈ s.ready, n ∈ left ∧ g.readyAmong left n = true :=
    fun n hn => h.mem_ready (List.mem_append_right out hn)
  have hout : ∀ n ∈ s.ready, n ∉ out :=
    fun n hn hmem => List.disjoint_of_nodup_append hnodup hmem hn
  have hwaiting : ∀ n ∈ s.ready, n ∈ s.names ∧ (s.entry n).progress = .waiting 0 := by
    intro n hn
    obtain ⟨hleft, hnone⟩ := hready n hn
    have hnode := hrest.nodes n hleft
    refine ⟨h.names n hnode, ?_⟩
    rw [h.entry n hnode, progress_of_not_mem_out hleft (hout n hn), beq_iff_eq.mp hnone]
  obtain ⟨passed, hpassed, hmoved⟩ :=
    Sorter.exists_foldlM_pass (List.nodup_append.mp hnodup).2.1 hwaiting
  refine ⟨{ passed with ready := [], passedOut := s.passedOut + s.ready.length }, ?_, rfl, ?_⟩
  · rw [Sorter.takeReady, hpassed]
    rfl
  · refine ⟨fun n hn => hmoved.names ▸ h.names n hn, fun n hn => ?_, ?_, ?_⟩
    · change passed.entry n = _
      rw [hmoved.entry, h.entry n hn]
      split
      case isTrue hmem =>
        rw [progress_of_mem_out (hready n hmem).1 (List.mem_append_right out hmem)]
      case isFalse hmem =>
        have hiff : n ∈ out ++ s.ready ↔ n ∈ out := by simp [hmem]
        simp only [progress, hiff]
    · rw [List.append_nil]
      exact h.ready
    · change s.passedOut + s.ready.length = passed.finished + (out ++ s.ready).length
      rw [hmoved.finished, h.counts, List.length_append, Nat.add_assoc]

/-- A name that was passed out can be done. It leaves the others, and those become ready that depended on
nothing else. -/
theorem finish (hg : g.WF) (h : g.Stage left out s) (hrest : g.Rest left) (hnone : s.ready = [])
    (hn : n ∈ out) :
    ∃ s', s.finish n = some s' ∧ g.Stage (left.filter (· != n)) (out.erase n) s' := by
  have hout : out.Perm (left.filter (g.readyAmong left)) := by simpa [hnone] using h.ready
  have hleft := (List.mem_filter.mp (hout.mem_iff.mp hn)).1
  have hnode := hrest.nodes n hleft
  have hmove := Sorter.Moved.move (fun _ => .done) (h.names n hnode)
  have hwaiting : ∀ m ∈ g.dependents n, m ∈ (s.move n .done).names ∧
      ((s.move n .done).entry m).progress =
        .waiting (g.pending (left.filter (· != n)) m + 1) := by
    intro m hm
    obtain ⟨hdepends, hmleft, hmout, hmn⟩ := of_mem_dependents hrest hout hn hm
    have hmnode := hrest.nodes m hmleft
    refine ⟨hmove.names ▸ h.names m hmnode, ?_⟩
    rw [hmove.entry, if_neg (by simpa using hmn), h.entry m hmnode,
      progress_of_not_mem_out hmleft hmout, pending_filter_of_mem hg hleft hdepends]
  obtain ⟨released, hreleased, hmoved, hready⟩ :=
    Sorter.exists_foldlM_release (hg.nodup_dependents n) hwaiting
  refine ⟨{ released with finished := released.finished + 1 }, ?_, ?_⟩
  · rw [Sorter.finish, Sorter.get?_of_mem (h.names n hnode), h.entry n hnode,
      progress_of_mem_out hleft hn, Option.bind_eq_bind, Option.bind_some, if_pos rfl, hreleased]
    rfl
  · refine ⟨fun m hm => ?_, fun m hm => ?_, ?_, ?_⟩
    · have hnames : released.names = s.names := hmoved.names.trans hmove.names
      exact hnames ▸ h.names m hm
    · change released.entry m = _
      rw [hmoved.entry, hmove.entry, progress_next hrest hout hn hm, h.entry m hm]
      by_cases hdependent : m ∈ g.dependents n
      · have hmn := (of_mem_dependents hrest hout hn hdependent).2.2.2
        simp [hdependent, hmn]
      · by_cases hmn : m = n
        · subst hmn
          simp [hdependent]
        · simp [hdependent, hmn]
    · change (out.erase n ++ released.ready).Perm _
      have hnothing : (s.move n .done).ready = [] := hnone
      rw [hready, hnothing, List.nil_append]
      exact perm_next hrest hout hn hg
    · change released.passedOut = released.finished + 1 + (out.erase n).length
      have hpos := List.length_pos_of_mem hn
      rw [hmoved.passedOut, hmoved.finished, hmove.passedOut, hmove.finished, h.counts,
        List.length_erase_of_mem hn]
      omega

end Stage

end DependencyGraph

end SchemaModels
