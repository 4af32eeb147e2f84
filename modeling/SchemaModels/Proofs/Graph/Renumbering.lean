import SchemaModels.Proofs.Graph.Order
import SchemaModels.Proofs.Table

/-! # Renumbered positions

The dependency order, and the cycle that is found where there is none, depend on the positions of names
only through the order of these positions (`SameOrder`), and on the excluded names only through the
nodes and edges that these leave. -/

namespace SchemaModels

/-! ## Positions in the same order -/

/-- All positions of a table are less than a given one. -/
def Precedes (p : Table String Int) (x : Int) : Prop := ∀ a y, p.get? a = some y → y < x

theorem Precedes.insert {p : Table String Int} {x z : Int} (h : Precedes p x) (n : String) (hz : z < x) :
    Precedes (p.insert n z) x := by
  intro a y hy
  by_cases ha : a = n
  · rw [ha, Table.get?_insert_self, Option.some.injEq] at hy
    omega
  · rw [Table.get?_insert_of_ne ha] at hy
    exact h a y hy

/-- Two tables of positions that place the same names in the same order. -/
structure SameOrder (p q : Table String Int) : Prop where
  isSome : ∀ n, (p.get? n).isSome = (q.get? n).isSome
  lt_iff : ∀ {a b x y x' y'}, p.get? a = some x → p.get? b = some y →
    q.get? a = some x' → q.get? b = some y' → (x < y ↔ x' < y')

namespace SameOrder

variable {p q : Table String Int} {n : String}

theorem empty : SameOrder ∅ ∅ := ⟨fun _ => rfl, nofun⟩

theorem exists_some (h : SameOrder p q) {x : Int} (hx : p.get? n = some x) :
    ∃ x', q.get? n = some x' := by
  rw [← Option.isSome_iff_exists, ← h.isSome, hx]
  rfl

theorem eq_none (h : SameOrder p q) (hn : p.get? n = none) : q.get? n = none := by
  rw [← Option.isNone_iff_eq_none, ← Option.isSome_eq_false_iff, ← h.isSome, hn]
  rfl

/-- A name that is placed after all others, in both tables. -/
theorem insert (h : SameOrder p q) {x x' : Int} (hx : Precedes p x) (hx' : Precedes q x') :
    SameOrder (p.insert n x) (q.insert n x') where
  isSome a := by
    by_cases ha : a = n
    · rw [ha, Table.get?_insert_self, Table.get?_insert_self]
      rfl
    · rw [Table.get?_insert_of_ne ha, Table.get?_insert_of_ne ha, h.isSome]
  lt_iff := by
    intro a b y z y' z' hy hz hy' hz'
    by_cases ha : a = n
    · rw [ha, Table.get?_insert_self, Option.some.injEq] at hy hy'
      by_cases hb : b = n
      · rw [hb, Table.get?_insert_self, Option.some.injEq] at hz hz'
        omega
      · rw [Table.get?_insert_of_ne hb] at hz hz'
        have hlt := hx b z hz
        have hlt' := hx' b z' hz'
        omega
    · rw [Table.get?_insert_of_ne ha] at hy hy'
      by_cases hb : b = n
      · rw [hb, Table.get?_insert_self, Option.some.injEq] at hz hz'
        have hlt := hx a y hy
        have hlt' := hx' a y' hy'
        omega
      · rw [Table.get?_insert_of_ne hb] at hz hz'
        exact h.lt_iff hy hz hy' hz'

/-- Names that are placed one after the other, the same ones in both tables. -/
theorem insertAll {es fs : List (String × Int)} (h : SameOrder p q)
    (hnames : es.map (·.1) = fs.map (·.1))
    (hes : es.Pairwise (·.2 < ·.2)) (hfs : fs.Pairwise (·.2 < ·.2))
    (hp : ∀ e ∈ es, Precedes p e.2) (hq : ∀ f ∈ fs, Precedes q f.2) :
    SameOrder (p.insertAll es) (q.insertAll fs) := by
  induction es generalizing p q fs with
  | nil =>
    rw [List.map_eq_nil_iff.mp hnames.symm]
    exact h
  | cons e es ih =>
    cases fs with
    | nil => cases hnames
    | cons f fs =>
      rw [List.map_cons, List.map_cons, List.cons.injEq] at hnames
      obtain ⟨hname, hnames⟩ := hnames
      obtain ⟨hlater, hes⟩ := List.pairwise_cons.mp hes
      obtain ⟨hlater', hfs⟩ := List.pairwise_cons.mp hfs
      have hstep : SameOrder (p.insert e.1 e.2) (q.insert f.1 f.2) := by
        rw [← hname]
        exact h.insert (hp e List.mem_cons_self) (hq f List.mem_cons_self)
      refine ih (p := p.insert e.1 e.2) (q := q.insert f.1 f.2) hstep hnames hes hfs
        (fun e' he' => ?_) fun f' hf' => ?_
      · exact (hp e' (List.mem_cons_of_mem e he')).insert e.1 (hlater e' he')
      · exact (hq f' (List.mem_cons_of_mem f hf')).insert f.1 (hlater' f' hf')

end SameOrder

namespace DependencyGraph

variable {g : DependencyGraph} {q : Table String Int}

/-- The graph with other positions. -/
def withPositions (g : DependencyGraph) (positions : Table String Int) : DependencyGraph :=
  { g with positions }

/-! ## Ranks -/

theorem group_rank_withPositions (h : SameOrder g.positions q) (n : String) :
    ((g.withPositions q).rank n).group = (g.rank n).group := by
  cases hx : g.positions.get? n with
  | none =>
    have hx' : (g.withPositions q).positions.get? n = none := h.eq_none hx
    rw [rank_of_no_position hx, rank_of_no_position hx']
  | some x =>
    obtain ⟨x', hx'⟩ : ∃ x', (g.withPositions q).positions.get? n = some x' := h.exists_some hx
    rw [rank_of_position hx, rank_of_position hx']

theorem place_rank_withPositions (h : SameOrder g.positions q) {a b : String}
    (hgroup : (g.rank a).group = (g.rank b).group) :
    ((g.withPositions q).rank a).place < ((g.withPositions q).rank b).place ↔
      (g.rank a).place < (g.rank b).place := by
  cases hx : g.positions.get? a with
  | none =>
    cases hy : g.positions.get? b with
    | none =>
      have hx' : (g.withPositions q).positions.get? a = none := h.eq_none hx
      have hy' : (g.withPositions q).positions.get? b = none := h.eq_none hy
      rw [rank_of_no_position hx, rank_of_no_position hx', rank_of_no_position hy,
        rank_of_no_position hy']
      rfl
    | some y =>
      rw [rank_of_no_position hx, rank_of_position hy] at hgroup
      cases hgroup
  | some x =>
    cases hy : g.positions.get? b with
    | none =>
      rw [rank_of_position hx, rank_of_no_position hy] at hgroup
      cases hgroup
    | some y =>
      obtain ⟨x', hx'⟩ : ∃ x', (g.withPositions q).positions.get? a = some x' := h.exists_some hx
      obtain ⟨y', hy'⟩ : ∃ y', (g.withPositions q).positions.get? b = some y' := h.exists_some hy
      rw [rank_of_position hx, rank_of_position hx', rank_of_position hy, rank_of_position hy']
      exact (h.lt_iff hx hy hx' hy').symm

/-- Ranks of the same names in two graphs compare alike. -/
structure SameRanks (g g' : DependencyGraph) : Prop where
  le : ∀ a b, (g'.rank a).le (g'.rank b) = (g.rank a).le (g.rank b)
  keyLe : ∀ a b, (g'.rank a).keyLe (g'.rank b) = (g.rank a).keyLe (g.rank b)

theorem sameRanks_withPositions (h : SameOrder g.positions q) : g.SameRanks (g.withPositions q) := by
  have hplace {a b : String} (hgroup : (g.rank a).group = (g.rank b).group) :
      (((g.withPositions q).rank a).place < ((g.withPositions q).rank b).place ↔
        (g.rank a).place < (g.rank b).place) ∧
      (((g.withPositions q).rank a).place = ((g.withPositions q).rank b).place ↔
        (g.rank a).place = (g.rank b).place) := by
    have hlt := place_rank_withPositions h hgroup
    have hgt := place_rank_withPositions h hgroup.symm
    omega
  constructor
  · intro a b
    by_cases hgroup : (g.rank a).group = (g.rank b).group
    · simp [Rank.le, group_rank_withPositions h, hgroup, hplace hgroup]
    · simp [Rank.le, group_rank_withPositions h, hgroup]
  · intro a b
    by_cases hgroup : (g.rank a).group = (g.rank b).group
    · simp [Rank.keyLe, group_rank_withPositions h, hgroup, le_iff_lt_or_eq, hplace hgroup]
    · simp [Rank.keyLe, group_rank_withPositions h, hgroup]

/-! ## Cycles and orders -/

section

variable {g' : DependencyGraph}

theorem emit_congr (h : ∀ n left, g'.readyAmong left n = g.readyAmong left n) (count : Nat)
    (left : List String) : g'.emit count left = g.emit count left := by
  induction count generalizing left with
  | zero => rfl
  | succ count ih =>
    have hready : g'.readyAmong left = g.readyAmong left := funext fun n => h n left
    rw [emit, emit, hready]
    simp only [ih]

/-- Graphs with the same nodes and edges, in which ranks compare alike, have the same order, or the
same cycle is found in them. -/
theorem sort_congr (hg : g.WF) (hg' : g'.WF) (hnodes : g'.nodes = g.nodes)
    (hedges : g'.edges = g.edges) (hrank : g.SameRanks g') (listing : Listing) :
    g'.sort listing = g.sort listing := by
  have hdependencies : g'.dependencies = g.dependencies := by
    funext n
    rw [dependencies, dependencies, hedges]
  have hdependsOn : g'.DependsOn = g.DependsOn := by
    funext a b
    rw [DependsOn, DependsOn, hdependencies]
  have hcyclic : g'.Cyclic ↔ g.Cyclic := by rw [Cyclic, Cyclic, hdependsOn]
  by_cases h : g.Cyclic
  · have hrows : g'.rows listing = g.rows listing := by
      unfold rows
      simp only [hnodes, hdependencies, namesByKey_map, hrank.keyLe]
    obtain ⟨cycle, hcycle, hsort, -⟩ := sortBy_of_cyclic (fun n => some (g.rank n)) hg h
      (holds_rows hg listing)
    rw [sort, sort, hsort, hrows, sortBy, hcycle]
  · have hready (n : String) (left : List String) : g'.readyAmong left n = g.readyAmong left n := by
      rw [readyAmong, readyAmong, pending, pending, hdependencies]
    have hbyRank : g'.byRank g.nodes = g.byRank g.nodes := by
      unfold byRank
      simp only [hrank.le]
    rw [sort_of_not_cyclic hg h, sort_of_not_cyclic hg' (mt hcyclic.mp h), emit_congr hready, hnodes, hbyRank]

end

theorem order_withPositions (hg : g.WF) (h : SameOrder g.positions q) :
    (g.withPositions q).order = g.order := by
  have hg' : (g.withPositions q).WF := ⟨hg.nodup, hg.nodup_edges, hg.admitted, hg.source, hg.target⟩
  rw [order, order, sort_congr hg hg' rfl rfl (sameRanks_withPositions h)]

/-! ## Additions -/

theorem admits_withPositions (n : String) : (g.withPositions q).admits n = g.admits n := rfl

theorem addNode_withPositions (n : String) :
    (g.withPositions q).addNode n = (g.addNode n).withPositions q := by
  unfold addNode
  rw [admits_withPositions]
  split <;> rfl

theorem addEdge_withPositions (a b : String) :
    (g.withPositions q).addEdge a b = (g.addEdge a b).withPositions q := by
  unfold addEdge
  simp only [addNode_withPositions, admits_withPositions]
  split <;> rfl

theorem applyAll_withPositions (calls : List Call) :
    (g.withPositions q).applyAll calls = (g.applyAll calls).withPositions q := by
  induction calls generalizing g with
  | nil => rfl
  | cons c calls ih =>
    have hstep : (g.withPositions q).apply c = (g.apply c).withPositions q := by
      cases c with
      | node n => exact addNode_withPositions n
      | edge a b => exact addEdge_withPositions a b
    rw [applyAll, List.foldl_cons, hstep]
    exact ih

/-! ## Excluded names -/

/-- The graph with other excluded names. -/
def withExcluded (g : DependencyGraph) (excluded : List String) : DependencyGraph :=
  { g with excluded }

section

variable {e : List String} (h : ∀ n, n ∈ e ↔ n ∈ g.excluded)

include h

theorem admits_withExcluded (n : String) : (g.withExcluded e).admits n = g.admits n := by
  simp only [admits, withExcluded, List.contains_eq_mem, h]

theorem addNode_withExcluded (n : String) :
    (g.withExcluded e).addNode n = (g.addNode n).withExcluded e := by
  unfold addNode
  rw [admits_withExcluded h]
  split <;> rfl

theorem addEdge_withExcluded (a b : String) :
    (g.withExcluded e).addEdge a b = (g.addEdge a b).withExcluded e := by
  have ha : ∀ n, n ∈ e ↔ n ∈ (g.addNode a).excluded := by simpa using h
  have hab : ∀ n, n ∈ e ↔ n ∈ ((g.addNode a).addNode b).excluded := by simpa using h
  unfold addEdge
  simp only [addNode_withExcluded h, addNode_withExcluded ha, admits_withExcluded hab]
  split <;> rfl

/-- Additions ask only which names are excluded, not in which order these are listed. -/
theorem applyAll_withExcluded (calls : List Call) :
    (g.withExcluded e).applyAll calls = (g.applyAll calls).withExcluded e := by
  induction calls generalizing g with
  | nil => rfl
  | cons c calls ih =>
    have hstep : (g.withExcluded e).apply c = (g.apply c).withExcluded e := by
      cases c with
      | node n => exact addNode_withExcluded h n
      | edge a b => exact addEdge_withExcluded h a b
    rw [applyAll, List.foldl_cons, hstep]
    exact ih (by simpa using h)

end

theorem order_withExcluded (e : List String) : (g.withExcluded e).order = g.order := rfl

end DependencyGraph

end SchemaModels
