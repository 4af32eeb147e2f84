import SchemaModels.Distinct

/-! # Tables

Finite maps that keep the order in which their keys first came. A later value for a key takes the
place of the earlier one. -/

namespace SchemaModels

structure Table (κ α : Type) where
  entries : List (κ × α) := []
  deriving DecidableEq, Repr

namespace Table

variable {κ α : Type} [BEq κ]

instance : EmptyCollection (Table κ α) := ⟨⟨[]⟩⟩

def get? (t : Table κ α) (k : κ) : Option α := t.entries.lookup k

def contains (t : Table κ α) (k : κ) : Bool := (t.get? k).isSome

def keys (t : Table κ α) : List κ := t.entries.map (·.1)

def values (t : Table κ α) : List α := t.entries.map (·.2)

/-- Puts a value in the place of a key's entry, or a new entry at the end. -/
def insertEntry (k : κ) (a : α) : List (κ × α) → List (κ × α)
  | [] => [(k, a)]
  | e :: es => if e.1 == k then (e.1, a) :: es else e :: insertEntry k a es

def insert (t : Table κ α) (k : κ) (a : α) : Table κ α := ⟨insertEntry k a t.entries⟩

/-- Adds an entry for a key that has none. -/
def insertNew (t : Table κ α) (k : κ) (a : α) : Table κ α := if t.contains k then t else t.insert k a

def insertAll (t : Table κ α) (es : List (κ × α)) : Table κ α :=
  es.foldl (fun t e => t.insert e.1 e.2) t

def ofList (es : List (κ × α)) : Table κ α := insertAll ∅ es

/-! ## Laws -/

variable [LawfulBEq κ] {t : Table κ α} {k l : κ} {a : α}

theorem lookup_insertEntry (k : κ) (a : α) (l : κ) (es : List (κ × α)) :
    (insertEntry k a es).lookup l = if l == k then some a else es.lookup l := by
  induction es with
  | nil => by_cases h : l = k <;> simp [insertEntry, List.lookup_cons, beq_eq_false_iff_ne.2, h]
  | cons e es ih =>
    by_cases he : e.1 = k
    · rw [insertEntry, if_pos (by simpa using he), List.lookup_cons, List.lookup_cons]
      grind
    · rw [insertEntry, if_neg (by simpa using he), List.lookup_cons, List.lookup_cons, ih]
      grind

@[simp] theorem get?_insert_self : (t.insert k a).get? k = some a := by
  simp [get?, insert, lookup_insertEntry]

theorem get?_insert_of_ne (h : l ≠ k) : (t.insert k a).get? l = t.get? l := by
  simp [get?, insert, lookup_insertEntry, h]

theorem map_insertEntry (k : κ) (a : α) (es : List (κ × α)) :
    (insertEntry k a es).map (·.1) = Distinct.add (es.map (·.1)) k := by
  unfold Distinct.add
  induction es with
  | nil => rfl
  | cons e es ih =>
    by_cases he : e.1 = k
    · simp [insertEntry, he]
    · simp only [insertEntry, beq_iff_eq, he, ↓reduceIte, List.map_cons, ih, List.contains_cons,
        beq_eq_false_iff_ne.2 (Ne.symm he), Bool.false_or]
      split <;> rfl

/-- A key that is there keeps its place, and a new one comes last. -/
theorem keys_insert : (t.insert k a).keys = Distinct.add t.keys k := map_insertEntry k a t.entries

theorem mem_keys_insert : l ∈ (t.insert k a).keys ↔ l ∈ t.keys ∨ l = k := by
  rw [keys_insert, Distinct.mem_add]

theorem nodup_keys_insert (h : t.keys.Nodup) : (t.insert k a).keys.Nodup := by
  rw [keys_insert]
  exact Distinct.nodup_add h k

theorem mem_keys_iff : k ∈ t.keys ↔ ∃ a, t.get? k = some a := by
  rw [← Option.isSome_iff_exists, get?, List.lookup_isSome_iff, keys, List.mem_map]
  simp only [beq_iff_eq, eq_comm (a := k)]

end Table

end SchemaModels
