/-! # Lists without repetition

Sets that remember the order in which their elements came. -/

namespace SchemaModels.Distinct

variable {α : Type} [BEq α]

/-- Adds an element at the end, unless it is there. -/
def add (xs : List α) (x : α) : List α := if xs.contains x then xs else xs ++ [x]

/-- Adds elements one by one. -/
def addAll (xs ys : List α) : List α := ys.foldl add xs

/-- All elements of two such lists: those of the first, then the others of the second. -/
def union (xs ys : List α) : List α := xs ++ ys.filter fun y => !xs.contains y

@[simp] theorem union_nil (xs : List α) : union xs [] = xs := by simp [union]

@[simp] theorem nil_union (xs : List α) : union [] xs = xs := by simp [union]

theorem prefix_add (xs : List α) (x : α) : xs <+: add xs x := by
  unfold add
  split
  · exact List.prefix_refl xs
  · exact List.prefix_append xs [x]

variable [LawfulBEq α]

@[simp] theorem mem_add {xs : List α} {x y : α} : y ∈ add xs x ↔ y ∈ xs ∨ y = x := by
  unfold add
  split
  case isTrue h => simp only [List.contains_iff_mem] at h; grind
  case isFalse => simp

@[simp] theorem mem_addAll {xs ys : List α} {y : α} : y ∈ addAll xs ys ↔ y ∈ xs ∨ y ∈ ys := by
  induction ys generalizing xs with
  | nil => simp [addAll]
  | cons z zs ih => simpa [addAll, or_assoc] using @ih (add xs z)

theorem nodup_add {xs : List α} (h : xs.Nodup) (x : α) : (add xs x).Nodup := by
  unfold add
  split
  case isTrue => exact h
  case isFalse hx =>
    simp only [List.contains_iff_mem] at hx
    exact List.nodup_append.2 ⟨h, by simp, by grind⟩

theorem nodup_addAll {xs : List α} (h : xs.Nodup) (ys : List α) : (addAll xs ys).Nodup := by
  induction ys generalizing xs with
  | nil => exact h
  | cons y ys ih => exact ih (nodup_add h y)

@[simp] theorem mem_union {xs ys : List α} {y : α} : y ∈ union xs ys ↔ y ∈ xs ∨ y ∈ ys := by
  simp only [union, List.mem_append, List.mem_filter, Bool.not_eq_true', List.contains_eq_mem,
    decide_eq_false_iff_not]
  grind

theorem union_assoc (xs ys zs : List α) : union (union xs ys) zs = union xs (union ys zs) := by
  simp only [union, List.filter_append, List.filter_filter, List.append_assoc,
    List.append_cancel_left_eq]
  refine List.filter_congr fun z _ => ?_
  by_cases hx : z ∈ xs <;> by_cases hy : z ∈ ys <;> simp [hx, hy]

theorem nodup_union {xs ys : List α} (hx : xs.Nodup) (hy : ys.Nodup) : (union xs ys).Nodup := by
  rw [union, List.nodup_append]
  refine ⟨hx, hy.filter _, fun a ha b hb => ?_⟩
  simp only [List.mem_filter, Bool.not_eq_true', List.contains_eq_mem, decide_eq_false_iff_not] at hb
  exact fun h => hb.2 (h ▸ ha)

end SchemaModels.Distinct
