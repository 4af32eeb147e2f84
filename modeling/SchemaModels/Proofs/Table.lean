import SchemaModels.Table

/-! # Tables from lists of entries

Which keys a table has after several entries were put into it, and which value each of them has. -/

namespace SchemaModels.Table

variable {κ α : Type} [BEq κ] [LawfulBEq κ] {t : Table κ α} {es : List (κ × α)} {k l : κ} {a : α}

theorem get?_insertAll_of_not_mem (h : k ∉ es.map (·.1)) : (t.insertAll es).get? k = t.get? k := by
  induction es generalizing t with
  | nil => rfl
  | cons e es ih =>
    simp only [List.map_cons, List.mem_cons, not_or] at h
    exact (ih (t := t.insert e.1 e.2) h.2).trans (get?_insert_of_ne h.1)

/-- What is found under a key was put there, now or before. -/
theorem mem_of_get?_insertAll (h : (t.insertAll es).get? k = some a) :
    (k, a) ∈ es ∨ t.get? k = some a := by
  induction es generalizing t with
  | nil => exact .inr h
  | cons e es ih =>
    rcases ih (t := t.insert e.1 e.2) h with hes | hinsert
    · exact .inl (List.mem_cons_of_mem _ hes)
    · by_cases hk : k = e.1
      · subst hk
        rw [get?_insert_self] at hinsert
        cases hinsert
        exact .inl List.mem_cons_self
      · rw [get?_insert_of_ne hk] at hinsert
        exact .inr hinsert

theorem contains_insertAll :
    (t.insertAll es).contains k = true ↔ k ∈ es.map (·.1) ∨ t.contains k = true := by
  induction es generalizing t with
  | nil => simp [insertAll]
  | cons e es ih =>
    have hstep := ih (t := t.insert e.1 e.2)
    rw [insertAll, List.foldl_cons, ← insertAll, hstep, List.map_cons, List.mem_cons]
    by_cases hk : k = e.1
    · subst hk
      simp [contains]
    · simp [contains, get?_insert_of_ne hk, hk]

theorem get?_insertAll_of_mem (hnodup : (es.map (·.1)).Nodup) (h : (k, a) ∈ es) :
    (t.insertAll es).get? k = some a := by
  induction es generalizing t with
  | nil => simp at h
  | cons e es ih =>
    obtain ⟨hnew, hnodup⟩ := List.nodup_cons.mp hnodup
    rcases List.mem_cons.mp h with rfl | h
    · exact (get?_insertAll_of_not_mem (t := t.insert k a) hnew).trans get?_insert_self
    · exact ih hnodup h

omit [LawfulBEq κ] in
theorem mem_values_insert {b : α} (h : b ∈ (t.insert k a).values) : b = a ∨ b ∈ t.values := by
  obtain ⟨entries⟩ := t
  change b ∈ (insertEntry k a entries).map (·.2) at h
  change b = a ∨ b ∈ entries.map (·.2)
  induction entries with
  | nil => simpa [insertEntry] using h
  | cons e es ih =>
    rw [insertEntry] at h
    split at h
    · rw [List.map_cons, List.mem_cons] at h
      exact h.imp_right (List.mem_cons_of_mem _)
    · rw [List.map_cons, List.mem_cons] at h ⊢
      exact h.elim (fun h => .inr (.inl h)) fun h => (ih h).imp_right .inr

omit [LawfulBEq κ] in
theorem mem_values_insertAll {b : α} (h : b ∈ (t.insertAll es).values) :
    b ∈ es.map (·.2) ∨ b ∈ t.values := by
  induction es generalizing t with
  | nil => exact .inr h
  | cons e es ih =>
    rw [List.map_cons, List.mem_cons]
    rcases ih (t := t.insert e.1 e.2) h with hes | hinsert
    · exact .inl (.inr hes)
    · exact (mem_values_insert hinsert).imp_left .inl

/-! ## Entries for new keys only -/

theorem get?_insertNew :
    (t.insertNew l a).get? k = (t.get? k).or (if k == l then some a else none) := by
  by_cases hk : k = l
  · subst hk
    rw [insertNew, contains, beq_self_eq_true, if_pos rfl]
    cases hget : t.get? k with
    | some b => exact hget
    | none => exact get?_insert_self
  · rw [if_neg (by simpa using hk), Option.or_none, insertNew]
    split
    · rfl
    · exact get?_insert_of_ne hk

theorem get?_foldl_insertNew (ks : List κ) :
    (ks.foldl (fun t k => t.insertNew k a) t).get? k =
      (t.get? k).or (if ks.contains k then some a else none) := by
  induction ks generalizing t with
  | nil => simp
  | cons l ks ih =>
    rw [List.foldl_cons, ih, get?_insertNew, List.contains_cons]
    cases t.get? k with
    | some b => rfl
    | none => cases k == l <;> simp

theorem get?_insertAll_congr {u : Table κ α} (h : t.get? k = u.get? k) :
    (t.insertAll es).get? k = (u.insertAll es).get? k := by
  induction es generalizing t u with
  | nil => exact h
  | cons e es ih =>
    refine ih (t := t.insert e.1 e.2) (u := u.insert e.1 e.2) ?_
    by_cases hk : k = e.1
    · rw [hk, get?_insert_self, get?_insert_self]
    · rw [get?_insert_of_ne hk, get?_insert_of_ne hk, h]

/-! ## Values by key -/

theorem nodup_keys_insertNew (h : t.keys.Nodup) : (t.insertNew k a).keys.Nodup := by
  unfold insertNew
  split
  · exact h
  · exact nodup_keys_insert h

theorem nodup_keys_insertAll (h : t.keys.Nodup) : (t.insertAll es).keys.Nodup := by
  induction es generalizing t with
  | nil => exact h
  | cons e es ih => exact ih (nodup_keys_insert h)

theorem nodup_keys_foldl_insertNew (h : t.keys.Nodup) (ks : List κ) :
    (ks.foldl (fun t k => t.insertNew k a) t).keys.Nodup := by
  induction ks generalizing t with
  | nil => exact h
  | cons k ks ih => exact ih (nodup_keys_insertNew h)

theorem mem_entries_of_get? (h : t.get? k = some a) : (k, a) ∈ t.entries := by
  obtain ⟨before, after, hentries, -⟩ := List.lookup_eq_some_iff.mp h
  rw [hentries]
  exact List.mem_append_cons_self

theorem mem_values_iff (h : t.keys.Nodup) : a ∈ t.values ↔ ∃ k, t.get? k = some a := by
  constructor
  · intro ha
    obtain ⟨e, he, rfl⟩ := List.mem_map.mp ha
    obtain ⟨before, after, hentries⟩ := List.append_of_mem he
    refine ⟨e.1, List.lookup_eq_some_iff.mpr ⟨before, after, hentries, fun p hp => ?_⟩⟩
    rw [keys, hentries, List.map_append, List.nodup_append] at h
    have hne := h.2.2 p.1 (List.mem_map_of_mem hp) e.1 List.mem_cons_self
    simpa using Ne.symm hne
  · rintro ⟨k, hk⟩
    exact List.mem_map_of_mem (f := (·.2)) (mem_entries_of_get? hk)

/-! ## Tables of functions -/

theorem insertEntry_of_not_mem (h : k ∉ es.map (·.1)) : insertEntry k a es = es ++ [(k, a)] := by
  induction es with
  | nil => rfl
  | cons e es ih =>
    rw [List.map_cons, List.mem_cons, not_or] at h
    rw [insertEntry, if_neg (by simpa using Ne.symm h.1), ih h.2, List.cons_append]

/-- The values of a function under given keys. -/
def tabulate (ks : List κ) (f : κ → α) : Table κ α := ⟨ks.map fun k => (k, f k)⟩

section

variable {ks : List κ} {f g : κ → α}

omit [BEq κ] [LawfulBEq κ] in
theorem keys_tabulate : (tabulate ks f).keys = ks := by
  rw [keys, tabulate, List.map_map]
  exact List.map_id ks

theorem get?_tabulate : (tabulate ks f).get? k = if ks.contains k then some (f k) else none := by
  induction ks with
  | nil => rfl
  | cons l ks ih =>
    rw [get?, tabulate, List.map_cons, List.lookup_cons, List.contains_cons]
    cases hl : k == l with
    | true => rw [beq_iff_eq.mp hl, Bool.true_or, if_pos rfl]
    | false => exact ih

theorem get?_tabulate_of_mem (hk : k ∈ ks) : (tabulate ks f).get? k = some (f k) := by
  rw [get?_tabulate, if_pos (List.contains_iff_mem.mpr hk)]

theorem get?_tabulate_of_not_mem (hk : k ∉ ks) : (tabulate ks f).get? k = none := by
  rw [get?_tabulate, if_neg (mt List.contains_iff_mem.mp hk)]

theorem contains_tabulate : (tabulate ks f).contains k = ks.contains k := by
  rw [contains, get?_tabulate]
  cases ks.contains k <;> rfl

/-- A new key comes after the others. -/
theorem insert_tabulate_of_not_mem (hk : k ∉ ks) (ha : g k = a) (h : ∀ l ∈ ks, f l = g l) :
    (tabulate ks f).insert k a = tabulate (ks ++ [k]) g := by
  have hkeys : k ∉ (tabulate ks f).keys := by rwa [keys_tabulate]
  have hold : (ks.map fun l => (l, f l)) = ks.map fun l => (l, g l) :=
    List.map_congr_left fun l hl => by rw [h l hl]
  rw [insert, insertEntry_of_not_mem hkeys, tabulate, tabulate, List.map_append, hold,
    List.map_singleton, ha]

/-- A key that is there keeps its place. -/
theorem insert_tabulate_of_mem (hnodup : ks.Nodup) (hk : k ∈ ks) (ha : g k = a)
    (h : ∀ l ∈ ks, l ≠ k → f l = g l) : (tabulate ks f).insert k a = tabulate ks g := by
  refine congrArg Table.mk ?_
  change insertEntry k a (ks.map fun l => (l, f l)) = ks.map fun l => (l, g l)
  induction ks with
  | nil => cases hk
  | cons l ks ih =>
    obtain ⟨hl, hnodup⟩ := List.nodup_cons.mp hnodup
    rw [List.map_cons, List.map_cons, insertEntry]
    by_cases hlk : l = k
    · subst hlk
      rw [if_pos (by simp), ha]
      refine congrArg _ (List.map_congr_left fun m hm => ?_)
      rw [h m (List.mem_cons_of_mem l hm) fun hml => hl (hml ▸ hm)]
    · rw [if_neg (by simpa using hlk), h l List.mem_cons_self hlk]
      refine congrArg _ (ih hnodup ((List.mem_cons.mp hk).resolve_left (Ne.symm hlk)) ?_)
      exact fun m hm => h m (List.mem_cons_of_mem l hm)

end

end SchemaModels.Table
