import SchemaModels.Proofs.Declaration
import SchemaModels.Proofs.Values

/-! # Required fields under another name

A field whose name is reserved is written under another one, with a default. Whether it is required is
read off the expression for its type, where the non-null wrapper has left no trace but the missing
optional layer. For most types this comes to the same (`isNullable_typeOf`). A scalar for any value has
no such layer: its expression is nullable with and without a wrapper, so the field has a default. -/

namespace SchemaModels

namespace TypeRef

/-- Whether a reference is non-null at its outermost level. -/
def isNonNull : TypeRef Empty → Bool
  | named _ | list _ => false
  | nonNull _ => true

/-- The name that a reference is, non-null wrappers apart. A list is none. -/
def bareName? : TypeRef Empty → Option String
  | named name => some name
  | list _ => none
  | nonNull inner => inner.bareName?

end TypeRef

/-! ## Nullable expressions -/

namespace ScalarTable

variable {t : ScalarTable}

/-- A reference is no more than the name of a scalar for any value. -/
def StandsForAny (t : ScalarTable) (ref : TypeRef Empty) : Prop :=
  ref.bareName?.bind t.target? = some anyType

instance (t : ScalarTable) : DecidablePred t.StandsForAny := fun ref =>
  inferInstanceAs (Decidable (ref.bareName?.bind t.target? = some anyType))

/-- Without its optional layer, only the expression for any value is nullable. -/
theorem isNullable_stripOptional_typeOf (ref : TypeRef Empty) :
    (t.typeOf ref).expr.stripOptional.isNullable = true ↔ (t.typeOf ref).expr = .dynamic := by
  cases hexpr : (t.typeOf ref).expr with
  | optional inner =>
    have hlayer : .optional inner ∈ (t.typeOf ref).expr.parts := by
      rw [hexpr]
      exact List.mem_cons_self
    have hinner := isNullable_of_optional_mem_parts ref hlayer
    simp [TypeExpr.stripOptional, hinner]
  | scalar | dynamic | reference | list | blank => simp [TypeExpr.stripOptional, TypeExpr.isNullable]

theorem typeOf_eq_dynamic_iff (ref : TypeRef Empty) :
    (t.typeOf ref).expr = .dynamic ↔ t.StandsForAny ref := by
  unfold StandsForAny
  induction ref with
  | named name =>
    change (t.resolveName name).expr = .dynamic ↔ t.target? name = some anyType
    obtain ⟨htarget, hname⟩ | ⟨htarget, hname⟩ | ⟨target, htarget, hany, hname⟩ :=
      t.resolveName_cases name
    · simp [htarget, hname]
    · simp [htarget, hname]
    · simp [htarget, hname, hany]
  | list item => simp [typeOf, TypeRef.bareName?]
  | nonNull inner ih =>
    rw [TypeRef.bareName?, ← ih]
    constructor
    · intro hstripped
      refine (isNullable_stripOptional_typeOf inner).mp ?_
      exact congrArg TypeExpr.isNullable hstripped
    · exact congrArg TypeExpr.stripOptional
  | other gap => exact gap.elim

/-- The expression for a type is nullable unless the type is non-null at its outermost level, and also
then if it stands for any value. -/
theorem isNullable_typeOf (ref : TypeRef Empty) :
    (t.typeOf ref).expr.isNullable = true ↔ ref.isNonNull = false ∨ t.StandsForAny ref := by
  cases ref with
  | named name =>
    refine iff_of_true ?_ (.inl rfl)
    change (t.resolveName name).expr.isNullable = true
    obtain ⟨-, hname⟩ | ⟨-, hname⟩ | ⟨_, -, -, hname⟩ := t.resolveName_cases name <;>
      rw [hname] <;> rfl
  | list item => exact iff_of_true rfl (.inl rfl)
  | nonNull inner =>
    have hinner := isNullable_stripOptional_typeOf (t := t) inner
    rw [typeOf_eq_dynamic_iff] at hinner
    exact hinner.trans (or_iff_right Bool.true_eq_false.mp).symm
  | other gap => exact gap.elim

end ScalarTable

/-! ## Lines of fields -/

namespace Session

/-- Two steps are recorded one after the other, if the first one succeeds. -/
theorem record_bind {α β : Type} (s : Session) {w : Written α} {a : α} (h : w.result = .ok a)
    (g : α → Written β) : s.record (w >>= g) = (s.record w).1.record (g a) := by
  obtain ⟨u, calls, r⟩ := w
  obtain rfl : r = .ok a := h
  simp [record, Usage.merge_assoc, DependencyGraph.applyAll]

theorem fieldLine_widen (s : Session) (owner : String) (f : Field Empty) :
    s.fieldLine owner f.widen =
      (s.resolveType f.type.widen).1.attributeLine owner f.name (s.scalars.typeOf f.type) := by
  change s.record (Attribute.line <$> (s.scalars.annotate f.type.widen >>= _)) = _
  rw [map_bind, s.record_bind (s.scalars.result_annotate_widen f.type)]
  rfl

theorem attributeLine_of_reserved (s : Session) (owner : String) {name text : String}
    (hreserved : s.options.Reserves name) {type : ResolvedType}
    (htext : type.expr.render true = some text) :
    (s.attributeLine owner name type).2 =
      .ok ("    " ++ (Text.snakeCase name ++ s.options.aliasSuffix) ++ ": " ++ text ++
        (" = Field(" ++ (if type.expr.isNullable then "None" else "...") ++ ", alias='" ++ name ++ "')")) := by
  rw [attributeLine, result_record, Written.result_map, attribute_eq, hreserved]
  dsimp only
  rw [TypeExpr.write, htext]
  cases type.expr.isNullable <;> rfl

/-- A field of a reserved name has the line that resolving its type and then writing it gives. It has no
default exactly if its type is non-null at its outermost level and does not stand for any value. -/
theorem fieldLine_of_reserved (s : Session) (owner : String) (f : Field Empty)
    (hreserved : s.options.Reserves f.name) :
    ∃ type text, (s.resolveType f.type.widen).2 = .ok type ∧
      s.fieldLine owner f.widen = (s.resolveType f.type.widen).1.attributeLine owner f.name type ∧
      type.expr.render true = some text ∧
      (s.fieldLine owner f.widen).2 =
        .ok ("    " ++ (Text.snakeCase f.name ++ s.options.aliasSuffix) ++ ": " ++ text ++
          (" = Field(" ++
            (if f.type.isNonNull = true ∧ ¬s.scalars.StandsForAny f.type then "..." else "None") ++
            ", alias='" ++ f.name ++ "')")) := by
  have htype := s.scalars.result_annotate_widen f.type
  obtain ⟨text, htext⟩ := TypeExpr.exists_render (s.scalars.leaf_typeOf_ne_blank f.type) true
  refine ⟨s.scalars.typeOf f.type, text, htype, s.fieldLine_widen owner f, htext, ?_⟩
  have hdefault : (if (s.scalars.typeOf f.type).expr.isNullable then "None" else "...") =
      if f.type.isNonNull = true ∧ ¬s.scalars.StandsForAny f.type then "..." else "None" := by
    rw [← ite_not]
    refine if_congr ?_ rfl rfl
    rw [ScalarTable.isNullable_typeOf, not_or, Bool.not_eq_false]
  rw [fieldLine_widen, ← hdefault]
  exact attributeLine_of_reserved _ owner hreserved htext

/-- A list that cannot be null is required, also if anything may stand in it. -/
theorem fieldLine_of_reserved_list :
    let f : Field Empty := ⟨"copy", .nonNull (.list (.named "JSON"))⟩
    ∃ s : Session, start {} ["JSON"] ∅ = .ok s ∧ s.options.Reserves f.name ∧
      (s.fieldLine "" f.widen).2 = .ok "    copy_: List[Any] = Field(..., alias='copy')" := by
  intro f
  obtain ⟨s, hs⟩ : ∃ s, start {} ["JSON"] ∅ = .ok s := ⟨_, rfl⟩
  have hreserved : s.options.Reserves f.name := by
    cases hs
    unfold Options.Reserves
    decide +kernel
  refine ⟨s, hs, hreserved, ?_⟩
  obtain ⟨type, text, htype, -, htext, hline⟩ := fieldLine_of_reserved s "" f hreserved
  cases hs
  cases htype
  cases htext
  exact hline.trans (by decide +kernel)

/-- A value that cannot be null has a default if it may be anything. -/
theorem fieldLine_required_any :
    let f : Field Empty := ⟨"copy", .nonNull (.named "JSON")⟩
    ∃ s : Session, start {} ["JSON"] ∅ = .ok s ∧ s.options.Reserves f.name ∧
      f.type.isNonNull = true ∧
      (s.fieldLine "" f.widen).2 = .ok "    copy_: Any = Field(None, alias='copy')" := by
  intro f
  refine ⟨_, rfl, ?_, rfl, ?_⟩
  · unfold Options.Reserves
    decide +kernel
  · decide +kernel

end Session

end SchemaModels
