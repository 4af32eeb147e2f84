import Mathlib.Data.Prod.Lex
import Mathlib.Data.String.Basic
import SchemaModels.Graph.Order

/-! # Ranks

Ranks are linearly ordered, so names have one order by rank (`DependencyGraph.byRank`), and what is taken
from a heap is the least rank in it. -/

namespace SchemaModels.DependencyGraph

variable {g : DependencyGraph} {names : List String}

/-! ## The linear order -/

namespace Rank

/-- A rank as an element of a lexicographic order. -/
def key (r : Rank) : ℕ ×ₗ ℤ ×ₗ String := toLex (r.group, toLex (r.place, r.name))

theorem le_iff_key {a b : Rank} : a.le b = true ↔ a.key ≤ b.key := by
  rw [key, key, Prod.Lex.toLex_le_toLex, Prod.Lex.toLex_le_toLex, le]
  by_cases hgroup : a.group = b.group
  · by_cases hplace : a.place = b.place
    · simp [hgroup, hplace]
    · simp [hgroup, hplace]
  · simp [hgroup]

theorem key_injective : Function.Injective key := by
  rintro ⟨group, place, name⟩ ⟨group', place', name'⟩ h
  simp only [key, toLex_inj, Prod.mk.injEq] at h
  obtain ⟨rfl, rfl, rfl⟩ := h
  rfl

theorem key_le_of_place {group : Nat} {place place' : Int} {name name' : String}
    (h : place < place') : key ⟨group, place, name⟩ ≤ key ⟨group, place', name'⟩ := by
  rw [key, key, Prod.Lex.toLex_le_toLex, Prod.Lex.toLex_le_toLex]
  exact .inr ⟨rfl, .inl h⟩

end Rank

theorem rank_of_position {n : String} {p : Int} (h : g.positions.get? n = some p) :
    g.rank n = ⟨0, p, n⟩ := by
  rw [rank, h]

theorem rank_of_no_position {n : String} (h : g.positions.get? n = none) :
    g.rank n = ⟨1, g.nodes.idxOf n, n⟩ := by
  rw [rank, h]

theorem rank_injective : Function.Injective g.rank := by
  intro a b h
  have hname := congrArg Rank.name h
  rwa [name_rank, name_rank] at hname

/-! ## Names by rank -/

/-- Names by rank, the least first. -/
def byRank (g : DependencyGraph) (names : List String) : List String :=
  names.mergeSort fun a b => (g.rank a).le (g.rank b)

theorem byRank_perm (names : List String) : (g.byRank names).Perm names := List.mergeSort_perm names _

theorem pairwise_byRank (names : List String) :
    (g.byRank names).Pairwise fun a b => (g.rank a).key ≤ (g.rank b).key := by
  refine (List.pairwise_mergeSort (fun a b c hab hbc => ?_) (fun a b => ?_) names).imp
    Rank.le_iff_key.mp
  · exact Rank.le_iff_key.mpr ((Rank.le_iff_key.mp hab).trans (Rank.le_iff_key.mp hbc))
  · rw [Bool.or_eq_true, Rank.le_iff_key, Rank.le_iff_key]
    exact le_total _ _

/-- Names that increase in rank are sorted. -/
theorem byRank_eq_of_perm {sorted : List String} (hperm : sorted.Perm names)
    (h : sorted.Pairwise fun a b => (g.rank a).key ≤ (g.rank b).key) : g.byRank names = sorted := by
  refine List.Perm.eq_of_pairwise (fun a b _ _ hab hba => ?_) (pairwise_byRank names) h
    ((byRank_perm names).trans hperm.symm)
  exact rank_injective (Rank.key_injective (le_antisymm hab hba))

theorem namesByKey_map (names : List String) :
    namesByKey (names.map g.rank) = names.mergeSort fun a b => (g.rank a).keyLe (g.rank b) := by
  have hsort := List.map_mergeSort (l := names) (f := g.rank) (s := Rank.keyLe)
    (r := fun a b => (g.rank a).keyLe (g.rank b)) fun _ _ _ _ => rfl
  rw [namesByKey, ← hsort, List.map_map]
  exact List.map_id'' (fun _ => name_rank) _

theorem namesByKey_perm (listing : Listing) (names : List String) :
    (namesByKey ((listing.list names).map g.rank)).Perm names := by
  rw [namesByKey_map]
  exact (List.mergeSort_perm _ _).trans (listing.perm names)

theorem pairwise_namesByKey (names : List String) :
    (namesByKey (names.map g.rank)).Pairwise fun a b => (g.rank a).keyLe (g.rank b) = true := by
  rw [namesByKey_map]
  refine List.pairwise_mergeSort (fun a b c hab hbc => ?_) (fun a b => ?_) names
  · grind [Rank.keyLe]
  · grind [Rank.keyLe]

/-- Ranks that stand by position already stay as they are. -/
theorem namesByKey_of_pairwise {ranks : List Rank} (h : ranks.Pairwise fun a b => a.keyLe b = true) :
    namesByKey ranks = ranks.map Rank.name := by
  rw [namesByKey, List.mergeSort_of_pairwise h]

/-! ## Distinct positions -/

/-- No two names are at the same position. -/
def DistinctPositions (g : DependencyGraph) : Prop :=
  ∀ {a b p}, g.positions.get? a = some p → g.positions.get? b = some p → a = b

theorem eq_of_keyLe (h : g.DistinctPositions) {a b : String} (ha : a ∈ g.nodes)
    (hab : (g.rank a).keyLe (g.rank b) = true) (hba : (g.rank b).keyLe (g.rank a) = true) : a = b := by
  have hkey : (g.rank a).group = (g.rank b).group ∧ (g.rank a).place = (g.rank b).place := by
    grind [Rank.keyLe]
  obtain ⟨hgroup, hplace⟩ := hkey
  cases hx : g.positions.get? a with
  | none =>
    cases hy : g.positions.get? b with
    | none =>
      rw [rank_of_no_position hx, rank_of_no_position hy] at hplace
      exact (List.idxOf_inj ha).mp (Int.ofNat.inj hplace)
    | some y =>
      rw [rank_of_no_position hx, rank_of_position hy] at hgroup
      cases hgroup
  | some x =>
    cases hy : g.positions.get? b with
    | none =>
      rw [rank_of_position hx, rank_of_no_position hy] at hgroup
      cases hgroup
    | some y =>
      rw [rank_of_position hx, rank_of_position hy] at hplace
      obtain rfl : x = y := hplace
      exact h hx hy

/-- Without names at the same position, it makes no difference how a set is listed. -/
theorem namesByKey_listing (h : g.DistinctPositions) (hnodes : ∀ n ∈ names, n ∈ g.nodes)
    (listing listing' : Listing) :
    namesByKey ((listing.list names).map g.rank) = namesByKey ((listing'.list names).map g.rank) := by
  refine List.Perm.eq_of_pairwise (fun a b ha _ hab hba => ?_) (pairwise_namesByKey _)
    (pairwise_namesByKey _) ((namesByKey_perm listing names).trans (namesByKey_perm listing' names).symm)
  exact eq_of_keyLe h (hnodes a ((namesByKey_perm listing names).mem_iff.mp ha)) hab hba

/-! ## Heaps -/

namespace Heap

theorem perm_foldl_push (h : Heap) (ranks : List Rank) :
    (ranks.foldl push h).ranks.Perm (h.ranks ++ ranks) := by
  induction ranks generalizing h with
  | nil => rw [List.foldl_nil, List.append_nil]
  | cons r ranks ih => exact (ih (h.push r)).trans List.perm_middle.symm

theorem foldl_le (r : Rank) (rest : List Rank) :
    let least := rest.foldl (fun a b => if a.le b then a else b) r
    least ∈ r :: rest ∧ ∀ x ∈ r :: rest, least.key ≤ x.key := by
  induction rest generalizing r with
  | nil => simp
  | cons r' rest ih =>
    rw [List.foldl_cons]
    split
    case isTrue hle =>
      obtain ⟨hmem, hleast⟩ := ih r
      refine ⟨by grind, fun x hx => ?_⟩
      rcases List.mem_cons.mp hx with rfl | hx
      · exact hleast x List.mem_cons_self
      · rcases List.mem_cons.mp hx with rfl | hx
        · exact (hleast r List.mem_cons_self).trans (Rank.le_iff_key.mp hle)
        · exact hleast x (List.mem_cons_of_mem r hx)
    case isFalse hle =>
      obtain ⟨hmem, hleast⟩ := ih r'
      refine ⟨List.mem_cons_of_mem r hmem, fun x hx => ?_⟩
      rcases List.mem_cons.mp hx with rfl | hx
      · have hlt := lt_of_not_ge (mt Rank.le_iff_key.mpr hle)
        exact (hleast r' List.mem_cons_self).trans hlt.le
      · exact hleast x hx

/-- A heap that is not empty gives its least rank. -/
theorem exists_pop {h : Heap} (hne : h.ranks ≠ []) :
    ∃ least rest, h.pop = some (least, rest) ∧ h.ranks.Perm (least :: rest.ranks) ∧
      ∀ r ∈ h.ranks, least.key ≤ r.key := by
  obtain ⟨_ | ⟨r, rest⟩⟩ := h
  · exact absurd rfl hne
  · obtain ⟨hmem, hleast⟩ := foldl_le r rest
    exact ⟨_, _, rfl, List.perm_cons_erase hmem, hleast⟩

end Heap

end SchemaModels.DependencyGraph
