import SchemaModels.Proofs.Written
import SchemaModels.TypeExpr.OfRef

/-! # Resolved types

A reference of a document always resolves, and what it resolves to has the leaf that its innermost name
alone would have. So the leaf is a declared type exactly if the name is no scalar, and the expression
can be written. Whatever its parts need is among what the reference uses. -/

namespace SchemaModels

/-- The name inside all lists and non-null types. -/
def TypeRef.innermost : TypeRef Empty → String
  | named name => name
  | list item => item.innermost
  | nonNull inner => inner.innermost

/-! ## Expressions -/

namespace TypeExpr

/-- An expression and all expressions inside it. -/
def parts : TypeExpr → List TypeExpr
  | list item => .list item :: item.parts
  | optional inner => .optional inner :: inner.parts
  | e => [e]

/-- The feature that the outermost level of an expression needs. -/
def feature? : TypeExpr → Option Feature
  | optional _ => some .optional
  | list _ => some .list
  | dynamic => some .dynamic
  | scalar _ | reference _ | blank => none

/-- An optional layer around a leaf has two parts. -/
theorem mem_parts_optional {e leaf : TypeExpr} (h : leaf.parts = [leaf]) :
    e ∈ (optional leaf).parts ↔ e = optional leaf ∨ e = leaf := by
  rw [parts, h, List.mem_pair]

theorem parts_stripOptional_subset (e : TypeExpr) : e.stripOptional.parts ⊆ e.parts := by
  cases e with
  | optional inner => exact List.subset_cons_self _ _
  | _ => exact List.Subset.refl _

@[simp] theorem leaf_stripOptional (e : TypeExpr) : e.stripOptional.leaf = e.leaf := by
  cases e <;> rfl

theorem exists_render {e : TypeExpr} (h : e.leaf ≠ .blank) (quoted : Bool) :
    ∃ s, e.render quoted = some s := by
  induction e with
  | scalar | dynamic | reference => exact ⟨_, rfl⟩
  | list item ih | optional item ih =>
    obtain ⟨s, hs⟩ := ih h
    exact ⟨_, by rw [render, hs]; rfl⟩
  | blank => exact absurd rfl h

theorem exists_write {e : TypeExpr} (h : e.leaf ≠ .blank) (quoted : Bool) :
    ∃ s, e.write quoted = .ok s := by
  obtain ⟨s, hs⟩ := exists_render h quoted
  exact ⟨s, by rw [write, hs]⟩

end TypeExpr

namespace ScalarTable

variable {t : ScalarTable}

theorem target?_eq_none_iff {name : String} : t.target? name = none ↔ t.contains name = false := by
  simp [target?, contains, Table.contains]

theorem contains_of_target? {name target : String} (h : t.target? name = some target) :
    t.contains name = true := by
  rw [← Bool.not_eq_false, ← target?_eq_none_iff, h]
  exact Option.some_ne_none _

/-! ## Names -/

/-- The expression for a type name. -/
def resolveName (t : ScalarTable) (name : String) : ResolvedType :=
  match t.target? name with
  | some target =>
    if target == anyType then ⟨anyType, .dynamic⟩
    else ⟨shortName target, .optional (.scalar (shortName target))⟩
  | none => ⟨name, .optional (.reference name)⟩

/-- What the expression for a type name uses. -/
def usageOfName (t : ScalarTable) (name : String) : Usage :=
  match t.target? name with
  | some target =>
    if target == anyType then .ofFeatures [.dynamic]
    else
      match dotted? target with
      | some (module, short) => (Usage.ofName module short).merge (.ofFeatures [.optional])
      | none => .ofFeatures [.optional]
  | none => (Usage.ofReferenced [name]).merge (.ofFeatures [.optional])

theorem annotateName_eq (t : ScalarTable) (name : String) :
    t.annotateName name = ⟨t.usageOfName name, [], .ok (t.resolveName name)⟩ := by
  rw [annotateName, usageOfName, resolveName]
  cases t.target? name with
  | none => rfl
  | some target =>
    by_cases hany : target == anyType
    · simp only [if_pos hany]
      rfl
    · simp only [if_neg hany]
      cases dotted? target with
      | none => rfl
      | some dotted => rfl

theorem resolveName_of_not_scalar {name : String} (h : t.target? name = none) :
    t.resolveName name = ⟨name, .optional (.reference name)⟩ := by
  rw [resolveName, h]

theorem resolveName_of_any {name : String} (h : t.target? name = some anyType) :
    t.resolveName name = ⟨anyType, .dynamic⟩ := by
  rw [resolveName, h]
  rfl

theorem resolveName_of_scalar {name target : String} (h : t.target? name = some target)
    (hany : target ≠ anyType) :
    t.resolveName name = ⟨shortName target, .optional (.scalar (shortName target))⟩ := by
  simp only [resolveName, h, beq_iff_eq, if_neg hany]

/-- What a name resolves to: a declared type, any value, or another scalar. -/
theorem resolveName_cases (t : ScalarTable) (name : String) :
    (t.target? name = none ∧ t.resolveName name = ⟨name, .optional (.reference name)⟩) ∨
      (t.target? name = some anyType ∧ t.resolveName name = ⟨anyType, .dynamic⟩) ∨
      ∃ target, t.target? name = some target ∧ target ≠ anyType ∧
        t.resolveName name = ⟨shortName target, .optional (.scalar (shortName target))⟩ := by
  cases htarget : t.target? name with
  | none => exact .inl ⟨rfl, resolveName_of_not_scalar htarget⟩
  | some target =>
    by_cases hany : target = anyType
    · subst hany
      exact .inr (.inl ⟨rfl, resolveName_of_any htarget⟩)
    · exact .inr (.inr ⟨target, rfl, hany, resolveName_of_scalar htarget hany⟩)

/-! ## References without gaps -/

/-- The expression for a type reference that has no gap. -/
def typeOf (t : ScalarTable) : TypeRef Empty → ResolvedType
  | .named name => t.resolveName name
  | .list item => { t.typeOf item with expr := .optional (.list (t.typeOf item).expr) }
  | .nonNull inner => (t.typeOf inner).stripOptional

/-- What the expression for a type reference uses, non-null wrappers apart. -/
def usageOf (t : ScalarTable) : TypeRef Gap → Usage
  | .named name => t.usageOfName name
  | .list item => (t.usageOf item).merge (.ofFeatures [.list, .optional])
  | .nonNull inner => t.usageOf inner
  | .other _ => {}

theorem annotate_widen (ref : TypeRef Empty) :
    t.annotate ref.widen = ⟨t.usageOf ref.widen, [], .ok (t.typeOf ref)⟩ := by
  induction ref with
  | named name => exact t.annotateName_eq name
  | list item ih =>
    change t.annotate (.list item.widen) = _
    rw [annotate, ih]
    rfl
  | nonNull inner ih =>
    change t.annotate (.nonNull inner.widen) = _
    rw [annotate, ih, Written.ok_bind, Written.pure_eq, Usage.merge_empty]
    rfl
  | other gap => exact gap.elim

theorem result_annotate_widen (ref : TypeRef Empty) :
    (t.annotate ref.widen).result = .ok (t.typeOf ref) :=
  congrArg Written.result (t.annotate_widen ref)

theorem leaf_typeOf (ref : TypeRef Empty) :
    (t.typeOf ref).expr.leaf = (t.resolveName ref.innermost).expr.leaf := by
  induction ref with
  | named name => rfl
  | list item ih => exact ih
  | nonNull inner ih => exact (t.typeOf inner).expr.leaf_stripOptional.trans ih
  | other gap => exact gap.elim

theorem id_typeOf (ref : TypeRef Empty) :
    (t.typeOf ref).id = (t.resolveName ref.innermost).id := by
  induction ref with
  | named name => rfl
  | list item ih => exact ih
  | nonNull inner ih => exact ih
  | other gap => exact gap.elim

theorem leaf_typeOf_ne_blank (ref : TypeRef Empty) : (t.typeOf ref).expr.leaf ≠ .blank := by
  rw [leaf_typeOf]
  obtain ⟨-, h⟩ | ⟨-, h⟩ | ⟨_, -, -, h⟩ := t.resolveName_cases ref.innermost <;>
    rw [h] <;> exact TypeExpr.noConfusion

/-- The leaf is a declared type exactly if the innermost name is no scalar. -/
theorem isReference_typeOf (ref : TypeRef Empty) :
    (t.typeOf ref).expr.isReference = !t.contains ref.innermost := by
  rw [TypeExpr.isReference, leaf_typeOf]
  obtain ⟨htarget, h⟩ | ⟨htarget, h⟩ | ⟨target, htarget, -, h⟩ := t.resolveName_cases ref.innermost
  · rw [target?_eq_none_iff.mp htarget, h]
    rfl
  · rw [contains_of_target? htarget, h]
    rfl
  · rw [contains_of_target? htarget, h]
    rfl

theorem id_typeOf_of_not_contains {ref : TypeRef Empty} (h : t.contains ref.innermost = false) :
    (t.typeOf ref).id = ref.innermost := by
  rw [id_typeOf, resolveName_of_not_scalar (target?_eq_none_iff.mpr h)]

/-! ## The names that a type uses -/

@[simp] theorem referenced_ofFeatures (fs : List Feature) : (Usage.ofFeatures fs).referenced = [] :=
  rfl

theorem mem_referenced_usageOfName {n name : String} :
    n ∈ (t.usageOfName name).referenced ↔ n = name ∧ t.contains n = false := by
  unfold usageOfName
  split
  case h_1 target htarget =>
    have hcontains := contains_of_target? htarget
    have hne : ¬(n = name ∧ t.contains n = false) := by
      rintro ⟨rfl, hn⟩
      exact nomatch hcontains.symm.trans hn
    rw [iff_false_right hne]
    split
    · simp
    · split <;> simp [Usage.ofName]
  case h_2 hnone =>
    rw [target?_eq_none_iff] at hnone
    rw [Usage.mem_referenced_merge, referenced_ofFeatures, Usage.ofReferenced, Distinct.mem_addAll]
    simp only [List.not_mem_nil, List.mem_singleton, false_or, or_false]
    exact ⟨fun h => ⟨h, h ▸ hnone⟩, And.left⟩

/-- A reference uses its innermost name, unless that is a scalar. -/
theorem mem_referenced_usageOf {n : String} (ref : TypeRef Empty) :
    n ∈ (t.usageOf ref.widen).referenced ↔ n = ref.innermost ∧ t.contains n = false := by
  induction ref with
  | named name => exact mem_referenced_usageOfName
  | list item ih =>
    change n ∈ ((t.usageOf item.widen).merge _).referenced ↔ _
    rw [Usage.mem_referenced_merge, ih, referenced_ofFeatures]
    simp [TypeRef.innermost]
  | nonNull inner ih => exact ih
  | other gap => exact gap.elim

/-! ## The imports that a type uses -/

@[simp] theorem mem_features_ofFeatures {f : Feature} {fs : List Feature} :
    f ∈ (Usage.ofFeatures fs).imports.features ↔ f ∈ fs := by
  simp [Usage.ofFeatures, Imports.register]

theorem feature_mem_usageOfName {name : String} {e : TypeExpr} {f : Feature}
    (he : e ∈ (t.resolveName name).expr.parts) (hf : e.feature? = some f) :
    f ∈ (t.usageOfName name).imports.features := by
  obtain ⟨htarget, hname⟩ | ⟨htarget, hname⟩ | ⟨target, htarget, hany, hname⟩ :=
    t.resolveName_cases name
  · rw [hname, TypeExpr.mem_parts_optional rfl] at he
    rcases he with rfl | rfl
    · cases hf
      simp [usageOfName, htarget]
    · cases hf
  · rw [hname] at he
    cases List.mem_singleton.mp he
    cases hf
    simp [usageOfName, htarget]
  · rw [hname, TypeExpr.mem_parts_optional rfl] at he
    rcases he with rfl | rfl
    · cases hf
      simp only [usageOfName, htarget, beq_iff_eq, if_neg hany]
      cases dotted? target <;> simp
    · cases hf

/-- Every part of an expression has its feature among those that the reference uses. -/
theorem feature_mem_usageOf (ref : TypeRef Empty) {e : TypeExpr} {f : Feature}
    (he : e ∈ (t.typeOf ref).expr.parts) (hf : e.feature? = some f) :
    f ∈ (t.usageOf ref.widen).imports.features := by
  induction ref with
  | named name => exact feature_mem_usageOfName he hf
  | list item ih =>
    change f ∈ ((t.usageOf item.widen).merge (.ofFeatures [.list, .optional])).imports.features
    rw [Usage.mem_features_merge, mem_features_ofFeatures]
    change e ∈ TypeExpr.optional _ :: TypeExpr.list _ :: (t.typeOf item).expr.parts at he
    simp only [List.mem_cons] at he
    rcases he with rfl | rfl | he
    · cases hf
      exact .inr (by decide)
    · cases hf
      exact .inr (by decide)
    · exact .inl (ih he)
  | nonNull inner ih => exact ih (TypeExpr.parts_stripOptional_subset _ he)
  | other gap => exact gap.elim

theorem mem_names_usageOfName {name : String} {n : ImportedName} :
    n ∈ (t.usageOfName name).imports.names ↔
      ∃ target, t.target? name = some target ∧ dotted? target = some (n.module, n.name) := by
  unfold usageOfName
  cases htarget : t.target? name with
  | none => simp [Usage.ofReferenced, Usage.ofFeatures, Imports.register]
  | some target =>
    simp only [Option.some.injEq, exists_eq_left']
    by_cases hany : target == anyType
    · have hplain : dotted? target = none := by
        rw [beq_iff_eq.mp hany]
        decide
      rw [if_pos hany, hplain]
      simp [Usage.ofFeatures, Imports.register]
    · rw [if_neg hany]
      rcases dotted? target with _ | ⟨module, short⟩
      · simp [Usage.ofFeatures, Imports.register]
      · change n ∈ [ImportedName.mk module short] ↔ _
        rw [List.mem_singleton]
        constructor <;> rintro ⟨⟩ <;> rfl

theorem mem_names_usageOf {n : ImportedName} (ref : TypeRef Empty) :
    n ∈ (t.usageOf ref.widen).imports.names ↔
      ∃ target, t.target? ref.innermost = some target ∧
        dotted? target = some (n.module, n.name) := by
  induction ref with
  | named name => exact mem_names_usageOfName
  | list item ih =>
    change n ∈ ((t.usageOf item.widen).merge (.ofFeatures _)).imports.names ↔ _
    rw [Usage.mem_names_merge, ih]
    exact or_iff_left List.not_mem_nil
  | nonNull inner ih => exact ih
  | other gap => exact gap.elim

/-- A target in a module is written by its last name. -/
theorem leaf_typeOf_of_dotted {ref : TypeRef Empty} {target module short : String}
    (htarget : t.target? ref.innermost = some target)
    (hdotted : dotted? target = some (module, short)) :
    (t.typeOf ref).expr.leaf = .scalar short := by
  have hany : target ≠ anyType := by
    rintro rfl
    have hplain : dotted? anyType = none := by decide
    rw [hplain] at hdotted
    cases hdotted
  rw [leaf_typeOf, resolveName_of_scalar htarget hany, shortName, hdotted]
  rfl

/-- All that a table says about a reference is the targets of names. -/
theorem annotate_congr {t' : ScalarTable} (h : ∀ name, t.target? name = t'.target? name)
    (ref : TypeRef Gap) : t.annotate ref = t'.annotate ref := by
  induction ref with
  | named name => rw [annotate, annotate, annotateName, annotateName, h]
  | list item ih | nonNull item ih => rw [annotate, annotate, ih]
  | other gap => rfl

theorem stable_usageOfName {Q : Usage → Prop} (hQ : Usage.Stable Q) (name : String) :
    Q (t.usageOfName name) := by
  unfold usageOfName
  split
  · split
    · exact hQ.ofFeatures _
    · split
      · exact hQ.merge (hQ.ofName _ _) (hQ.ofFeatures _)
      · exact hQ.ofFeatures _
  · exact hQ.merge (hQ.ofReferenced _) (hQ.ofFeatures _)

theorem stable_annotate {Q : Usage → Prop} (hQ : Usage.Stable Q) (ref : TypeRef Gap) :
    Q (t.annotate ref).usage := by
  induction ref with
  | named name =>
    rw [annotate, annotateName_eq]
    exact stable_usageOfName hQ name
  | list item ih =>
    exact Written.stable_bind hQ ih fun r => Written.stable_bind hQ (hQ.ofFeatures _) fun _ => hQ.empty
  | nonNull inner ih => exact Written.stable_bind hQ ih fun _ => hQ.empty
  | other gap => exact hQ.empty

/-! ## Types with gaps -/

/-- A type adds nothing to the graph. -/
theorem calls_annotate (ref : TypeRef Gap) : (t.annotate ref).calls = [] := by
  induction ref with
  | named name => rw [annotate, annotateName_eq]
  | list item ih => exact Written.calls_bind_eq_nil ih fun r => rfl
  | nonNull inner ih => exact Written.calls_bind_eq_nil ih fun r => rfl
  | other gap => rfl

/-- A type is resolved from the inside, so nothing is used if there is a gap in it. -/
theorem usage_annotate_of_error {ref : TypeRef Gap} {e : Failure}
    (h : (t.annotate ref).result = .error e) : (t.annotate ref).usage = {} := by
  induction ref with
  | named name =>
    rw [annotate, annotateName_eq] at h
    cases h
  | list item ih | nonNull item ih =>
    obtain ⟨hitem, husage⟩ := Written.error_of_bind (fun r => ⟨_, rfl⟩) h
    exact husage.trans (ih hitem)
  | other gap => rfl

theorem leaf_ne_blank_of_annotate {ref : TypeRef Gap} {r : ResolvedType}
    (h : (t.annotate ref).result = .ok r) : r.expr.leaf ≠ .blank := by
  induction ref generalizing r with
  | named name =>
    rw [annotate, annotateName_eq] at h
    cases h
    exact t.leaf_typeOf_ne_blank (.named name)
  | list item ih =>
    rw [annotate, Written.result_bind] at h
    obtain ⟨r', hr', heq⟩ := bind_eq_ok_iff.mp h
    obtain rfl := Except.ok.inj heq
    have hitem := ih hr'
    exact hitem
  | nonNull inner ih =>
    rw [annotate, Written.result_bind] at h
    obtain ⟨r', hr', heq⟩ := bind_eq_ok_iff.mp h
    cases heq
    exact (TypeExpr.leaf_stripOptional _).trans_ne (ih hr')
  | other gap => cases h

end ScalarTable

end SchemaModels
