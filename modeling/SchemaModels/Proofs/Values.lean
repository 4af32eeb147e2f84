import SchemaModels.Proofs.TypeExpr
import SchemaModels.Session

/-! # The values of types

A type reference and the type expression that it resolves to admit the same values. On the side of
references null is admitted unless a non-null wrapper forbids it; on the side of expressions it is
admitted only where an optional layer allows it. A non-null wrapper takes the outermost layer away,
and this is the layer of its own level: no optional layer lies directly in another one
(`isNullable_of_optional_mem_parts`), so a second wrapper changes nothing. -/

namespace SchemaModels

/-- Values, as far as the types in question tell them apart. -/
inductive Value (α : Type)
  | null
  | atom (a : α)
  | list (items : List (Value α))

variable {α : Type}

/-! ## What references admit -/

namespace TypeRef

/-- Whether a reference admits a value, where `innermost` says what the level of its name admits. A
level may be null if no non-null wrapper stands around it. -/
def AdmitsWith (innermost : (name : String) → (nullable : Bool) → Value α → Prop) :
    (nullable : Bool) → TypeRef Empty → Value α → Prop
  | nullable, named name, v => innermost name nullable v
  | nullable, list item, v =>
    (nullable = true ∧ v = .null) ∨
      ∃ items, v = .list items ∧ ∀ x ∈ items, item.AdmitsWith innermost true x
  | _, nonNull inner, v => inner.AdmitsWith innermost false v

/-- The level of a name that has values of its own: these, and null if it may be null. -/
def ownLevel (own : String → Value α → Prop) (name : String) (nullable : Bool) (v : Value α) : Prop :=
  (nullable = true ∧ v = .null) ∨ (v ≠ .null ∧ own name v)

/-- Whether a reference admits a value, given the values that names have of their own. -/
def Admits (own : String → Value α → Prop) (ref : TypeRef Empty) (v : Value α) : Prop :=
  ref.AdmitsWith (ownLevel own) true v

/-- Whether a reference would admit a value if its innermost level admitted every value. -/
def AdmitsAnyInside (ref : TypeRef Empty) (v : Value α) : Prop :=
  ref.AdmitsWith (fun _ _ _ => True) true v

end TypeRef

/-! ## What expressions admit -/

namespace TypeExpr

/-- Whether an expression admits a value, given the values that its leaf has of its own. -/
def Admits (own : TypeExpr → Value α → Prop) : TypeExpr → Value α → Prop
  | scalar primitive, v => v ≠ .null ∧ own (scalar primitive) v
  | reference name, v => v ≠ .null ∧ own (reference name) v
  | dynamic, _ => True
  | list item, v => ∃ items, v = .list items ∧ ∀ x ∈ items, item.Admits own x
  | optional inner, v => v = .null ∨ inner.Admits own v
  | blank, _ => False

/-- The expression for a level that may be null or not. -/
def atLevel (e : TypeExpr) (nullable : Bool) : TypeExpr := if nullable then e else e.stripOptional

theorem stripOptional_of_not_isNullable {e : TypeExpr} (h : e.isNullable = false) :
    e.stripOptional = e := by
  cases e with
  | optional inner => exact nomatch h
  | _ => rfl

theorem isNullable_eq_false_iff {e : TypeExpr} :
    e.isNullable = false ↔ e ≠ .dynamic ∧ ∀ inner, e ≠ .optional inner := by
  cases e <;> simp [isNullable]

end TypeExpr

namespace ScalarTable

variable {t : ScalarTable}

/-- What stands for a name: the declared type of this name, any value, or the scalar that is the name's
target. -/
def leafOf (t : ScalarTable) (name : String) : TypeExpr :=
  match t.target? name with
  | none => .reference name
  | some target => if target = anyType then .dynamic else .scalar (shortName target)

theorem leaf_resolveName (name : String) : (t.resolveName name).expr.leaf = t.leafOf name := by
  obtain ⟨htarget, hname⟩ | ⟨htarget, hname⟩ | ⟨target, htarget, hany, hname⟩ :=
    t.resolveName_cases name
  · rw [leafOf, htarget, hname]
    rfl
  · rw [leafOf, htarget, hname]
    exact (if_pos rfl).symm
  · rw [leafOf, htarget, hname]
    exact (if_neg hany).symm

/-! ## No optional layer in another one -/

theorem isNullable_of_optional_mem_parts_resolveName {name : String} {inner : TypeExpr}
    (h : .optional inner ∈ (t.resolveName name).expr.parts) : inner.isNullable = false := by
  obtain ⟨-, hname⟩ | ⟨-, hname⟩ | ⟨_, -, -, hname⟩ := t.resolveName_cases name
  · rw [hname, TypeExpr.mem_parts_optional rfl] at h
    rcases h with hlayer | hleaf
    · cases hlayer
      rfl
    · cases hleaf
  · rw [hname] at h
    cases List.mem_singleton.mp h
  · rw [hname, TypeExpr.mem_parts_optional rfl] at h
    rcases h with hlayer | hleaf
    · cases hlayer
      rfl
    · cases hleaf

/-- What lies directly in an optional layer cannot be null: it is neither optional nor dynamic. -/
theorem isNullable_of_optional_mem_parts (ref : TypeRef Empty) {inner : TypeExpr}
    (h : .optional inner ∈ (t.typeOf ref).expr.parts) : inner.isNullable = false := by
  induction ref with
  | named name => exact isNullable_of_optional_mem_parts_resolveName h
  | list item ih =>
    change .optional inner ∈
      .optional (.list (t.typeOf item).expr) :: .list _ :: (t.typeOf item).expr.parts at h
    rcases List.mem_cons.mp h with hlayer | h
    · cases hlayer
      rfl
    · rcases List.mem_cons.mp h with hlist | h
      · cases hlist
      · exact ih h
  | nonNull type ih => exact ih (TypeExpr.parts_stripOptional_subset _ h)
  | other gap => exact gap.elim

/-- Taking the optional layer of an expression away a second time changes nothing. -/
theorem stripOptional_stripOptional_typeOf (ref : TypeRef Empty) :
    (t.typeOf ref).expr.stripOptional.stripOptional = (t.typeOf ref).expr.stripOptional := by
  cases he : (t.typeOf ref).expr with
  | optional inner =>
    have hlayer : .optional inner ∈ (t.typeOf ref).expr.parts := by
      rw [he]
      exact List.mem_cons_self
    exact TypeExpr.stripOptional_of_not_isNullable (isNullable_of_optional_mem_parts ref hlayer)
  | _ => rfl

/-! ## The same values -/

variable {innermost : (name : String) → (nullable : Bool) → Value α → Prop}
  {own : TypeExpr → Value α → Prop}

/-- If the expression for a name admits what the level of the name does, then so it is for all
references to the name. -/
theorem admits_typeOf (ref : TypeRef Empty)
    (hname : ∀ nullable v, ((t.resolveName ref.innermost).expr.atLevel nullable).Admits own v ↔
      innermost ref.innermost nullable v) (nullable : Bool) (v : Value α) :
    ((t.typeOf ref).expr.atLevel nullable).Admits own v ↔ ref.AdmitsWith innermost nullable v := by
  -- both kinds of level at once: a wrapper asks for the other kind of the type inside it
  induction ref generalizing nullable v with
  | named name => exact hname nullable v
  | list item ih =>
    have hitems : (TypeExpr.list (t.typeOf item).expr).Admits own v ↔
        ∃ items, v = .list items ∧ ∀ x ∈ items, item.AdmitsWith innermost true x :=
      exists_congr fun items => and_congr_right fun _ => forall₂_congr fun x _ => ih hname true x
    cases nullable with
    | false => exact hitems.trans (by simp [TypeRef.AdmitsWith])
    | true => exact (or_congr Iff.rfl hitems).trans (by simp [TypeRef.AdmitsWith])
  | nonNull inner ih =>
    cases nullable with
    | false =>
      change (t.typeOf inner).expr.stripOptional.stripOptional.Admits own v ↔ _
      rw [stripOptional_stripOptional_typeOf]
      exact ih hname false v
    | true => exact ih hname false v
  | other gap => exact gap.elim

/-- A name that has values of its own resolves to them. -/
theorem admits_resolveName {ownName : String → Value α → Prop} {name : String}
    (hany : t.target? name ≠ some anyType)
    (hown : own (t.leafOf name) = ownName name) (nullable : Bool) (v : Value α) :
    ((t.resolveName name).expr.atLevel nullable).Admits own v ↔
      TypeRef.ownLevel ownName name nullable v := by
  have hleaf : ∃ leaf, (t.resolveName name).expr = .optional leaf ∧ leaf.leaf = leaf ∧
      (leaf.Admits own v ↔ v ≠ .null ∧ own leaf v) := by
    obtain ⟨-, hname⟩ | ⟨htarget, -⟩ | ⟨_, -, -, hname⟩ := t.resolveName_cases name
    · exact ⟨_, congrArg ResolvedType.expr hname, rfl, .rfl⟩
    · exact absurd htarget hany
    · exact ⟨_, congrArg ResolvedType.expr hname, rfl, .rfl⟩
  obtain ⟨leaf, hexpr, hself, hadmits⟩ := hleaf
  rw [← leaf_resolveName, hexpr, TypeExpr.leaf, hself] at hown
  rw [hexpr, TypeRef.ownLevel, ← hown, ← hadmits]
  cases nullable with
  | false => simp [TypeExpr.atLevel, TypeExpr.stripOptional]
  | true => simp [TypeExpr.atLevel, TypeExpr.Admits]

end ScalarTable

/-- Every type reference of names, lists and non-null types resolves in every session, to an expression
around the leaf that stands for its innermost name. If this leaf has the values of the name, then the
expression admits exactly the values of the reference; if the name stands for any value, then it admits
what the reference does once its innermost level admits every value. No optional layer lies directly
around another one or around `Any`. The leaf is a declared type exactly if the innermost name is no
scalar, and the type goes by that name, else by the name of the scalar's target without its module. -/
theorem Session.resolveType_admits (s : Session) (ref : TypeRef Empty)
    (ownName : String → Value α → Prop) (ownLeaf : TypeExpr → Value α → Prop) :
    ∃ type, (s.resolveType ref.widen).2 = .ok type ∧
      type.expr.leaf = s.scalars.leafOf ref.innermost ∧
      (s.scalars.target? ref.innermost ≠ some anyType →
        ownLeaf (s.scalars.leafOf ref.innermost) = ownName ref.innermost →
        ∀ v, type.expr.Admits ownLeaf v ↔ ref.Admits ownName v) ∧
      (s.scalars.target? ref.innermost = some anyType →
        ∀ v, type.expr.Admits ownLeaf v ↔ ref.AdmitsAnyInside v) ∧
      (∀ inner, .optional inner ∈ type.expr.parts →
        inner ≠ .dynamic ∧ ∀ deeper, inner ≠ .optional deeper) ∧
      (type.expr.isReference = true ↔ s.scalars.contains ref.innermost = false) ∧
      type.id = match s.scalars.target? ref.innermost with
        | none => ref.innermost
        | some target => if target = anyType then anyType else shortName target := by
  refine ⟨s.scalars.typeOf ref, ?_, ?_, ?_, ?_, ?_, ?_, ?_⟩
  · rw [resolveType, result_record, ScalarTable.annotate_widen]
  · rw [ScalarTable.leaf_typeOf, ScalarTable.leaf_resolveName]
  · intro hany hown
    exact ScalarTable.admits_typeOf ref (ScalarTable.admits_resolveName hany hown) true
  · intro hany
    refine ScalarTable.admits_typeOf ref (fun nullable v => ?_) true
    rw [ScalarTable.resolveName_of_any hany]
    cases nullable <;> exact .rfl
  · intro inner hinner
    exact TypeExpr.isNullable_eq_false_iff.mp (ScalarTable.isNullable_of_optional_mem_parts ref hinner)
  · rw [ScalarTable.isReference_typeOf, Bool.not_eq_true']
  · rw [ScalarTable.id_typeOf]
    obtain ⟨htarget, hname⟩ | ⟨htarget, hname⟩ | ⟨target, htarget, hany, hname⟩ :=
      s.scalars.resolveName_cases ref.innermost
    · rw [htarget, hname]
    · rw [htarget, hname]
      exact (if_pos rfl).symm
    · rw [htarget, hname]
      exact (if_neg hany).symm

/-- Dates from a module in a list, with a wrapper given twice, and a wrapped scalar for any value. -/
theorem Session.resolveType_admits_dates :
    let s : Session := {
      options := {}
      scalars := { targets := .ofList [("Date", "datetime.date"), ("JSON", "Any")] }
      graph := {} }
    let dates : TypeRef Empty := .nonNull (.nonNull (.list (.nonNull (.named "Date"))))
    let json : TypeRef Empty := .nonNull (.named "JSON")
    let ownName : String → Value Nat → Prop := fun name v => name = "Date" ∧ ∃ day, v = .atom day
    let ownLeaf : TypeExpr → Value Nat → Prop := fun e v => e = .scalar "date" ∧ ∃ day, v = .atom day
    (s.resolveType dates.widen).2 = .ok ⟨"date", .list (.scalar "date")⟩ ∧
      (∀ v, (TypeExpr.list (.scalar "date")).Admits ownLeaf v ↔ dates.Admits ownName v) ∧
      (s.resolveType json.widen).2 = .ok ⟨"Any", .dynamic⟩ ∧
      ∀ v, TypeExpr.dynamic.Admits ownLeaf v ↔ json.AdmitsAnyInside v := by
  intro s dates json ownName ownLeaf
  have hdates : (s.resolveType dates.widen).2 = .ok ⟨"date", .list (.scalar "date")⟩ := rfl
  have hjson : (s.resolveType json.widen).2 = .ok ⟨"Any", .dynamic⟩ := rfl
  have hdate : s.scalars.leafOf "Date" = .scalar "date" := by decide +kernel
  obtain ⟨type, htype, -, hsame, -⟩ := s.resolveType_admits dates ownName ownLeaf
  obtain ⟨anything, hanything, -, -, hevery, -⟩ := s.resolveType_admits json ownName ownLeaf
  obtain rfl := Except.ok.inj (hdates.symm.trans htype)
  obtain rfl := Except.ok.inj (hjson.symm.trans hanything)
  refine ⟨hdates, hsame (by decide) ?_, hjson, hevery (by decide)⟩
  funext v
  simp [ownLeaf, ownName, dates, TypeRef.innermost, hdate]

end SchemaModels
