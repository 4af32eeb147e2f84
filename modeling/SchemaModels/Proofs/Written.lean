import Mathlib.Data.List.Basic
import SchemaModels.Usage

/-! # Results and what was used on the way

How results, failures, usage and additions to the graph pass through a sequence of steps. Of several
steps, the first that fails gives the failure (`ReportsFirst`); if none fails, all that was used is
used. -/

namespace SchemaModels

/-! ## The first failure -/

/-- A result is the first of some failures, if there are any. -/
def ReportsFirst {ε α : Type} : List ε → Except ε α → Prop
  | [], r => ∃ a, r = .ok a
  | e :: _, r => r = .error e

namespace ReportsFirst

variable {ε α β : Type}

theorem map {es : List ε} {r : Except ε α} (h : ReportsFirst es r) (f : α → β) :
    ReportsFirst es (r.map f) := by
  cases es with
  | nil =>
    obtain ⟨a, rfl⟩ := h
    exact ⟨f a, rfl⟩
  | cons e es =>
    obtain rfl := h
    rfl

/-- The failures of a first step come before those of a second one. -/
theorem bind {es es' : List ε} {r : Except ε α} {f : α → Except ε β} (h : ReportsFirst es r)
    (hf : ∀ a, r = .ok a → ReportsFirst es' (f a)) : ReportsFirst (es ++ es') (r >>= f) := by
  cases es with
  | nil =>
    obtain ⟨a, rfl⟩ := h
    exact hf a rfl
  | cons e es =>
    obtain rfl := h
    rfl

theorem mapM' {es : α → List ε} {f : α → Except ε β} {l : List α}
    (h : ∀ a ∈ l, ReportsFirst (es a) (f a)) : ReportsFirst (l.flatMap es) (l.mapM' f) := by
  induction l with
  | nil => exact ⟨[], rfl⟩
  | cons a l ih =>
    have htail := ih fun b hb => h b (List.mem_cons_of_mem _ hb)
    rw [List.flatMap_cons, List.mapM'_cons]
    exact (h a List.mem_cons_self).bind fun b _ => htail.map (b :: ·)

end ReportsFirst

theorem bind_eq_ok_iff {ε α β : Type} {r : Except ε α} {f : α → Except ε β} {b : β} :
    r >>= f = .ok b ↔ ∃ a, r = .ok a ∧ f a = .ok b := by
  cases r with
  | error e => simp [bind, Except.bind]
  | ok a => simp [bind, Except.bind]

theorem map_eq_ok_iff {ε α β : Type} {r : Except ε α} {f : α → β} {b : β} :
    r.map f = .ok b ↔ ∃ a, r = .ok a ∧ f a = b := by
  cases r with
  | error e => simp [Except.map]
  | ok a => simp [Except.map]

theorem eq_ok_of_toOption {ε α : Type} {r : Except ε α} {a : α} (h : r.toOption = some a) :
    r = .ok a := by
  cases r with
  | error e => cases h
  | ok b => exact congrArg Except.ok (Option.some.inj h)

theorem mapM'_eq_ok_iff {ε α β : Type} {f : α → Except ε β} {l : List α} {bs : List β} :
    l.mapM' f = .ok bs ↔ l.map f = bs.map .ok := by
  induction l generalizing bs with
  | nil => cases bs <;> simp [pure, Except.pure]
  | cons a l ih =>
    rw [List.mapM'_cons, List.map_cons]
    cases hf : f a with
    | error e => cases bs <;> simp [bind, Except.bind]
    | ok b =>
      cases hl : l.mapM' f with
      | error e =>
        have hne : ∀ cs, l.map f ≠ List.map .ok cs := fun cs h => nomatch hl.symm.trans (ih.mpr h)
        cases bs <;> simp [bind, Except.bind, hne]
      | ok cs =>
        obtain hcs := ih.mp hl
        cases bs with
        | nil => simp [bind, Except.bind, pure, Except.pure]
        | cons c bs' =>
          rw [hcs]
          have hinj : List.map (Except.ok (ε := ε)) cs = List.map .ok bs' ↔ cs = bs' :=
            (List.map_injective_iff.mpr fun _ _ => Except.ok.inj).eq_iff
          simp [bind, Except.bind, pure, Except.pure, hinj]

theorem exists_of_map_eq_ok {ε α β : Type} {f : α → Except ε β} {l : List α} {bs : List β}
    (h : l.map f = bs.map .ok) {b : β} (hb : b ∈ bs) : ∃ a ∈ l, f a = .ok b := by
  have hmem : Except.ok b ∈ bs.map (Except.ok (ε := ε)) := List.mem_map_of_mem hb
  rw [← h] at hmem
  exact List.mem_map.mp hmem

/-! ## Usage -/

/-- A property of usage that the whole has exactly if one of its parts has it. -/
structure Usage.Additive (P : Usage → Prop) : Prop where
  empty : ¬P {}
  merge : ∀ u v : Usage, P (u.merge v) ↔ P u ∨ P v

theorem Usage.additive_referenced (n : String) : Usage.Additive (n ∈ ·.referenced) where
  empty := by simp
  merge _ _ := Usage.mem_referenced_merge

theorem Usage.additive_features (f : Feature) : Usage.Additive (f ∈ ·.imports.features) where
  empty := by simp
  merge _ _ := Usage.mem_features_merge

theorem Usage.additive_names (n : ImportedName) : Usage.Additive (n ∈ ·.imports.names) where
  empty := by simp
  merge _ _ := Usage.mem_names_merge

theorem Usage.Additive.foldl_merge {P : Usage → Prop} (hP : Usage.Additive P) (u : Usage)
    (us : List Usage) : P (us.foldl Usage.merge u) ↔ P u ∨ ∃ v ∈ us, P v := by
  induction us generalizing u with
  | nil => simp
  | cons v us ih =>
    rw [List.foldl_cons, ih, hP.merge]
    simp only [List.mem_cons, exists_eq_or_imp, or_assoc]

/-- A property that every single use has and that merging keeps. -/
structure Usage.Stable (Q : Usage → Prop) : Prop where
  ofFeatures : ∀ fs, Q (.ofFeatures fs)
  ofName : ∀ module name, Q (.ofName module name)
  ofReferenced : ∀ names, Q (.ofReferenced names)
  merge : ∀ {u v : Usage}, Q u → Q v → Q (u.merge v)

theorem Usage.stable_nodup_referenced : Usage.Stable (·.referenced.Nodup) where
  ofFeatures _ := List.nodup_nil
  ofName _ _ := List.nodup_nil
  ofReferenced names := Distinct.nodup_addAll List.nodup_nil names
  merge hu hv := Distinct.nodup_union hu hv

theorem Usage.stable_nodup_names : Usage.Stable (·.imports.names.Nodup) where
  ofFeatures _ := List.nodup_nil
  ofName _ _ := Distinct.nodup_add List.nodup_nil _
  ofReferenced _ := List.nodup_nil
  merge hu hv := Distinct.nodup_union hu hv

namespace Usage.Stable

variable {Q : Usage → Prop}

theorem empty (hQ : Usage.Stable Q) : Q {} := hQ.ofReferenced []

theorem foldl_merge (hQ : Usage.Stable Q) {u : Usage} {us : List Usage} (hu : Q u)
    (hus : ∀ v ∈ us, Q v) : Q (us.foldl Usage.merge u) := by
  induction us generalizing u with
  | nil => exact hu
  | cons v us ih =>
    have hv := hus v List.mem_cons_self
    exact ih (hQ.merge hu hv) fun w hw => hus w (List.mem_cons_of_mem _ hw)

end Usage.Stable

namespace Written

variable {α β : Type} {P : Usage → Prop}

@[simp] theorem result_bind (w : Written α) (f : α → Written β) :
    (w >>= f).result = w.result >>= fun a => (f a).result := by
  obtain ⟨u, calls, e | a⟩ := w <;> rfl

theorem result_map (g : α → β) (w : Written α) : (g <$> w).result = w.result.map g := by
  obtain ⟨u, calls, e | a⟩ := w <;> rfl

theorem usage_bind {w : Written α} {a : α} (h : w.result = .ok a) (f : α → Written β) :
    (w >>= f).usage = w.usage.merge (f a).usage := by
  obtain ⟨u, calls, r⟩ := w
  obtain rfl : r = .ok a := h
  rfl

theorem bind_of_error {w : Written α} {e : Failure} (h : w.result = .error e) (f : α → Written β) :
    w >>= f = ⟨w.usage, w.calls, .error e⟩ := by
  obtain ⟨u, calls, r⟩ := w
  obtain rfl : r = .error e := h
  rfl

/-- If only the first of two steps can fail, then a failure uses what that step used. -/
theorem error_of_bind {w : Written α} {f : α → Written β} {e : Failure}
    (hf : ∀ a, ∃ b, (f a).result = .ok b) (h : (w >>= f).result = .error e) :
    w.result = .error e ∧ (w >>= f).usage = w.usage := by
  obtain ⟨u, calls, e' | a⟩ := w
  · cases h
    exact ⟨rfl, rfl⟩
  · obtain ⟨b, hb⟩ := hf a
    cases hb.symm.trans h

/-- Steps that add nothing to the graph add nothing together. -/
theorem calls_bind_eq_nil {w : Written α} {f : α → Written β} (hw : w.calls = [])
    (hf : ∀ a, (f a).calls = []) : (w >>= f).calls = [] := by
  obtain ⟨u, calls, e | a⟩ := w
  · exact hw
  · exact List.append_eq_nil_iff.mpr ⟨hw, hf a⟩

theorem calls_mapM'_eq_nil {f : α → Written β} (hf : ∀ a, (f a).calls = []) (l : List α) :
    (l.mapM' f).calls = [] := by
  induction l with
  | nil => rfl
  | cons a l ih =>
    rw [List.mapM'_cons]
    exact calls_bind_eq_nil (hf a) fun b => calls_bind_eq_nil ih fun bs => rfl

theorem result_mapM' (f : α → Written β) (l : List α) :
    (l.mapM' f).result = l.mapM' fun a => (f a).result := by
  induction l with
  | nil => rfl
  | cons a l ih =>
    rw [List.mapM'_cons, List.mapM'_cons, result_bind]
    congr 1
    funext b
    rw [result_bind, ih]
    rfl

/-- Steps that all end well use what each of them uses. -/
theorem usage_mapM' (hP : Usage.Additive P) {f : α → Written β} {l : List α} {bs : List β}
    (h : (l.mapM' f).result = .ok bs) : P (l.mapM' f).usage ↔ ∃ a ∈ l, P (f a).usage := by
  induction l generalizing bs with
  | nil => simpa using hP.empty
  | cons a l ih =>
    rw [result_mapM', mapM'_eq_ok_iff] at h
    cases bs with
    | nil => simp at h
    | cons b bs =>
      obtain ⟨ha, hl⟩ := List.cons.inj h
      have hrest : (l.mapM' f).result = .ok bs := by rwa [result_mapM', mapM'_eq_ok_iff]
      rw [List.mapM'_cons, usage_bind ha, usage_bind hrest]
      simp only [pure_eq, Usage.merge_empty, hP.merge, ih hrest, List.mem_cons, exists_eq_or_imp]

/-- What holds of the usage of each step holds of the whole, whatever the steps come to. -/
theorem stable_bind {Q : Usage → Prop} (hQ : Usage.Stable Q) {w : Written α} {f : α → Written β}
    (hw : Q w.usage) (hf : ∀ a, Q (f a).usage) : Q (w >>= f).usage := by
  obtain ⟨u, calls, e | a⟩ := w
  · exact hw
  · exact hQ.merge hw (hf a)

theorem stable_mapM' {Q : Usage → Prop} (hQ : Usage.Stable Q) {f : α → Written β}
    (hf : ∀ a, Q (f a).usage) (l : List α) : Q (l.mapM' f).usage := by
  induction l with
  | nil => exact hQ.empty
  | cons a l ih =>
    rw [List.mapM'_cons]
    exact stable_bind hQ (hf a) fun b => stable_bind hQ ih fun bs => hQ.empty

end Written

end SchemaModels
