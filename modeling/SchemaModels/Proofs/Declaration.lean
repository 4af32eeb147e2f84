import SchemaModels.Declaration.OfDefinition
import SchemaModels.Proofs.Graph.Additions
import SchemaModels.Proofs.TypeExpr

/-! # What a definition is declared as

For a definition of a document: its block, which names its declaration has to stand after, what it uses
(`Declares`), and the first name for which there is no declaration at all (`reportsFirst_declare`). Each
fact is said of the content of the definition, without the steps that lead to the declaration. What any
definition adds to the graph on the way is what its declaration says (`AddsReturned`). -/

namespace SchemaModels

open DependencyGraph (entryCalls)

/-! ## The parts of a content -/

namespace Content

/-- The innermost names of the types of fields and members. -/
def typeNames (c : Content Empty) : List String :=
  c.fields.map (·.type.innermost) ++ c.members.map (·.innermost)

/-- The types of fields and members. -/
def types (c : Content Empty) : List (TypeRef Empty) := c.fields.map (·.type) ++ c.members

theorem mem_typeNames {c : Content Empty} {n : String} :
    n ∈ c.typeNames ↔ ∃ r ∈ c.types, r.innermost = n := by
  simp [typeNames, types, or_and_right, exists_or]

/-- The names that have to be declared before: members that are no scalars, and interfaces. -/
def dependencies (t : ScalarTable) (c : Content Empty) : List String :=
  (c.members.map (·.innermost)).filter (fun n => !t.contains n) ++ c.interfaces

theorem mem_dependencies {t : ScalarTable} {c : Content Empty} {n : String} :
    n ∈ c.dependencies t ↔
      (n ∈ c.members.map (·.innermost) ∧ t.contains n = false) ∨ n ∈ c.interfaces := by
  rw [dependencies, List.mem_append, List.mem_filter, Bool.not_eq_true']

end Content

/-- The feature that every definition of a kind uses. -/
def Kind.feature : Kind → Feature
  | enum => .enum
  | union => .union
  | interface | object | input => .modelBase

def Block.name : Block → String
  | unionAlias name _ => name
  | classBody name _ _ => name

/-! ## Names that cannot be written -/

/-- Whether a field of this name would be written as a keyword that is not reserved. -/
def clashes (reserved : List String) (name : String) : Bool :=
  Text.isKeyword (Text.snakeCase name) && !reserved.contains (Text.snakeCase name)

/-- A field of this name is written under another one. -/
def Options.Reserves (o : Options) (name : String) : Prop :=
  o.reserved.contains (Text.snakeCase name) = .ok true

/-- The values of an enum that are keywords, and the names of fields that would be, in order. -/
def Content.offences (reserved : List String) : Content Empty → List String
  | enum values => values.filter Text.isKeyword
  | c => (c.fields.map (·.name)).filter (clashes reserved)

variable {o : Options} {t : ScalarTable}

/-! ## Fields -/

/-- The attribute for a field, by what its name is. -/
theorem attribute_eq (owner name : String) (type : ResolvedType) :
    o.attribute owner name type =
      match o.reserved.contains (Text.snakeCase name) with
      | .error fault => ⟨{}, [], .error (.setting fault)⟩
      | .ok true =>
        ⟨.ofFeatures [.fieldAlias], [], (type.expr.write true).map fun annotation =>
          ⟨Text.snakeCase name ++ o.aliasSuffix, annotation, some ⟨name, !type.expr.isNullable⟩⟩⟩
      | .ok false =>
        if Text.isKeyword (Text.snakeCase name) then ⟨{}, [], .error (.invalidIdentifier owner name)⟩
        else ⟨{}, [], (type.expr.write true).map fun annotation =>
          ⟨Text.snakeCase name, annotation, none⟩⟩ := by
  unfold Options.attribute
  dsimp only
  cases o.reserved.contains (Text.snakeCase name) with
  | error fault => rfl
  | ok isReserved =>
    cases isReserved with
    | true => cases type.expr.write true <;> rfl
    | false =>
      by_cases hkeyword : Text.isKeyword (Text.snakeCase name)
      · rw [if_pos hkeyword, if_pos hkeyword]
        rfl
      · rw [if_neg hkeyword, if_neg hkeyword]
        cases type.expr.write true <;> rfl

theorem usage_attribute_iff {P : Usage → Prop} (hP : Usage.Additive P) (owner name : String)
    (type : ResolvedType) :
    P (o.attribute owner name type).usage ↔ o.Reserves name ∧ P (.ofFeatures [.fieldAlias]) := by
  rw [attribute_eq, Options.Reserves]
  rcases o.reserved.contains (Text.snakeCase name) with fault | isReserved
  · simpa using hP.empty
  · cases isReserved with
    | true => simp
    | false =>
      by_cases hkeyword : Text.isKeyword (Text.snakeCase name)
      · simpa [hkeyword] using hP.empty
      · simpa [hkeyword] using hP.empty

/-- An attribute adds nothing to the graph. -/
theorem calls_attribute (owner name : String) (type : ResolvedType) :
    (o.attribute owner name type).calls = [] := by
  rw [attribute_eq]
  split
  · rfl
  · rfl
  · split <;> rfl

theorem attributeOf_widen (owner : String) (f : Field Empty) :
    o.attributeOf t owner f.widen =
      ⟨(t.usageOf f.type.widen).merge (o.attribute owner f.name (t.typeOf f.type)).usage, [],
        (o.attribute owner f.name (t.typeOf f.type)).result⟩ := by
  change t.annotate f.type.widen >>= o.attribute owner f.name = _
  rw [ScalarTable.annotate_widen, Written.ok_bind, calls_attribute]
  rfl

/-- A field uses what its type uses, and the alias if its name is reserved. -/
theorem usage_attributeOf_iff {P : Usage → Prop} (hP : Usage.Additive P) (owner : String)
    (f : Field Empty) :
    P (o.attributeOf t owner f.widen).usage ↔
      P (t.usageOf f.type.widen) ∨ (o.Reserves f.name ∧ P (.ofFeatures [.fieldAlias])) := by
  rw [attributeOf_widen, hP.merge, usage_attribute_iff hP]

theorem reserves_of_alias {owner : String} {f : Field Empty} {a : Attribute}
    (h : (o.attributeOf t owner f.widen).result = .ok a) (ha : a.alias?.isSome = true) :
    o.Reserves f.name := by
  rw [attributeOf_widen, attribute_eq] at h
  unfold Options.Reserves
  rcases hreserved : o.reserved.contains (Text.snakeCase f.name) with fault | isReserved
  · simp [hreserved] at h
  · cases isReserved with
    | true => rfl
    | false =>
      simp only [hreserved] at h
      split at h
      · cases h
      · obtain ⟨text, -, rfl⟩ := map_eq_ok_iff.mp h
        cases ha

/-- A field is refused exactly if its name clashes. -/
theorem reportsFirst_attributeOf {reserved : List String} (hreserved : o.reserved = .oneOf reserved)
    (owner : String) (f : Field Empty) :
    ReportsFirst (if clashes reserved f.name then [.invalidIdentifier owner f.name] else [])
      (o.attributeOf t owner f.widen).result := by
  obtain ⟨s, hs⟩ := TypeExpr.exists_write (t.leaf_typeOf_ne_blank f.type) true
  rw [attributeOf_widen, attribute_eq, hreserved, ReservedNames.contains, hs]
  cases hname : reserved.contains (Text.snakeCase f.name) with
  | true =>
    rw [clashes, hname, Bool.not_true, Bool.and_false]
    exact ⟨_, rfl⟩
  | false =>
    rw [clashes, hname, Bool.not_false, Bool.and_true]
    by_cases hkeyword : Text.isKeyword (Text.snakeCase f.name)
    · simp only [if_pos hkeyword]
      rfl
    · simp only [if_neg hkeyword]
      exact ⟨_, rfl⟩

section

variable {owner : String} {fields : List (Field Empty)}

theorem usage_fieldLines_iff {P : Usage → Prop} (hP : Usage.Additive P) {lines : List String}
    (h : (o.fieldLines t owner (fields.map .widen)).result = .ok lines) :
    P (o.fieldLines t owner (fields.map .widen)).usage ↔
      ∃ f ∈ fields, P (t.usageOf f.type.widen) ∨ (o.Reserves f.name ∧ P (.ofFeatures [.fieldAlias])) := by
  rw [Options.fieldLines, Written.result_bind] at h
  obtain ⟨attributes, hattributes, -⟩ := bind_eq_ok_iff.mp h
  rw [Options.fieldLines, Written.usage_bind hattributes, Written.pure_eq, Usage.merge_empty,
    Written.usage_mapM' hP hattributes]
  simp only [List.mem_map, exists_exists_and_eq_and, usage_attributeOf_iff hP]

/-- The lines of fields add nothing to the graph. -/
theorem calls_fieldLines (fields : List (Field Gap)) : (o.fieldLines t owner fields).calls = [] := by
  refine Written.calls_bind_eq_nil (Written.calls_mapM'_eq_nil (fun f => ?_) fields) fun _ => rfl
  exact Written.calls_bind_eq_nil (t.calls_annotate f.type) fun type =>
    calls_attribute owner f.name type

theorem flatMap_clashes (reserved : List String) :
    (fields.flatMap fun f =>
        if clashes reserved f.name then [Failure.invalidIdentifier owner f.name] else []) =
      ((fields.map (·.name)).filter (clashes reserved)).map (.invalidIdentifier owner) := by
  induction fields with
  | nil => rfl
  | cons f fields ih =>
    rw [List.flatMap_cons, ih, List.map_cons, List.filter_cons]
    by_cases hf : clashes reserved f.name
    · rw [if_pos hf, if_pos hf]
      rfl
    · rw [if_neg hf, if_neg hf]
      rfl

theorem reportsFirst_fieldLines {reserved : List String} (hreserved : o.reserved = .oneOf reserved) :
    ReportsFirst (((fields.map (·.name)).filter (clashes reserved)).map (.invalidIdentifier owner))
      (o.fieldLines t owner (fields.map .widen)).result := by
  have hfields : ∀ f ∈ fields.map Field.widen, ReportsFirst
      (if clashes reserved f.name then [.invalidIdentifier owner f.name] else [])
      (o.attributeOf t owner f).result := by
    intro f hf
    obtain ⟨f, -, rfl⟩ := List.mem_map.mp hf
    exact reportsFirst_attributeOf hreserved owner f
  have hlines := (ReportsFirst.mapM' hfields).map (List.map Attribute.line)
  rw [List.flatMap_map, ← Written.result_mapM'] at hlines
  rw [← flatMap_clashes, Options.fieldLines, Written.result_bind]
  exact hlines

end

/-! ## Definitions -/

/-- One of the parts of which a definition's usage is made has a property: the feature of its kind, its
interfaces, the types of its fields and members, or the alias of a reserved field. -/
def UsesSome (o : Options) (t : ScalarTable) (c : Content Empty) (P : Usage → Prop) : Prop :=
  P (.ofFeatures [c.kind.feature]) ∨ P (.ofReferenced c.interfaces) ∨
    (∃ r ∈ c.types, P (t.usageOf r.widen)) ∨
    ((∃ f ∈ c.fields, o.Reserves f.name) ∧ P (.ofFeatures [.fieldAlias]))

/-- The block of a definition: an enum has a line for each value, a union the texts of its members, and
a model class the lines of its fields. -/
def Writes (o : Options) (t : ScalarTable) (name : String) : Content Empty → Block → Prop
  | .enum values, b => b = .classBody name ["str", "Enum"] (values.map enumLine)
  | .union members, b => ∃ texts : List String,
      (members.map fun r => (t.typeOf r).stripOptional.expr.write false) = texts.map .ok ∧
      b = .unionAlias name texts
  | c, b => ∃ attributes : List Attribute,
      (c.fields.map fun f => (o.attributeOf t name f.widen).result) = attributes.map .ok ∧
      b = .classBody name (if c.interfaces.isEmpty then ["BaseModel"] else c.interfaces)
        (attributes.map Attribute.line)

/-- What the declaration of a definition is, and what it uses. -/
structure Declares (o : Options) (t : ScalarTable) (d : Definition Empty) (w : Written Declaration)
    (D : Declaration) : Prop where
  name : D.name = d.name
  kind : D.kind = d.content.kind
  block : D.block.name = d.name
  writes : Writes o t d.name d.content D.block
  dependsOn : D.dependsOn = d.content.dependencies t
  usage : ∀ {P : Usage → Prop}, Usage.Additive P → (P w.usage ↔ UsesSome o t d.content P)

theorem Declares.referenced {d : Definition Empty} {w : Written Declaration} {D : Declaration}
    (h : Declares o t d w D) (n : String) :
    n ∈ w.usage.referenced ↔
      (n ∈ d.content.typeNames ∧ t.contains n = false) ∨ n ∈ d.content.interfaces := by
  have hinterfaces : n ∈ (Usage.ofReferenced d.content.interfaces).referenced ↔
      n ∈ d.content.interfaces := by
    rw [Usage.ofReferenced, Distinct.mem_addAll]
    exact or_iff_right List.not_mem_nil
  rw [h.usage (Usage.additive_referenced n), UsesSome, hinterfaces, Content.mem_typeNames]
  simp only [ScalarTable.mem_referenced_usageOf, ScalarTable.referenced_ofFeatures, List.not_mem_nil,
    false_or, and_false, or_false]
  grind

/-- The bases of a class become edges in order. -/
theorem forM_call_edge (name : String) (bases : List String) :
    (bases.forM fun base => Written.call (.edge name base)) =
      ⟨{}, bases.map (.edge name), .ok ()⟩ := by
  induction bases with
  | nil => rfl
  | cons base bases ih =>
    rw [List.forM, ih, Written.call, Written.ok_bind]
    rfl

theorem declareModel_eq (name : String) (kind : Kind) (bases lines : List String) :
    declareModel name kind bases lines =
      ⟨.ofFeatures [.modelBase], entryCalls name bases, .ok (.ofModel name kind bases lines)⟩ := by
  rw [declareModel, forM_call_edge]
  simp [Written.use, Written.call, entryCalls]

/-- The common part of interfaces, object types and input types. -/
theorem declareModel_ok {name : String} {kind : Kind} {bases : List String}
    {fields : List (Field Empty)} {D : Declaration}
    (h : (o.fieldLines t name (fields.map .widen) >>= declareModel name kind bases).result = .ok D) :
    (∃ attributes : List Attribute,
        (fields.map fun f => (o.attributeOf t name f.widen).result) = attributes.map .ok ∧
        D = .ofModel name kind bases (attributes.map Attribute.line)) ∧
      ∀ {P : Usage → Prop}, Usage.Additive P →
        (P (o.fieldLines t name (fields.map .widen) >>= declareModel name kind bases).usage ↔
          P (.ofFeatures [.modelBase]) ∨ (∃ f ∈ fields, P (t.usageOf f.type.widen)) ∨
            ((∃ f ∈ fields, o.Reserves f.name) ∧ P (.ofFeatures [.fieldAlias]))) := by
  rw [Written.result_bind] at h
  obtain ⟨lines, hlines, hD⟩ := bind_eq_ok_iff.mp h
  refine ⟨?_, fun {P} hP => ?_⟩
  · rw [Options.fieldLines, Written.result_bind] at hlines
    obtain ⟨attributes, hattributes, hmap⟩ := bind_eq_ok_iff.mp hlines
    rw [Written.result_mapM', mapM'_eq_ok_iff, List.map_map] at hattributes
    cases hmap
    rw [declareModel_eq] at hD
    exact ⟨attributes, hattributes, (Except.ok.inj hD).symm⟩
  · rw [Written.usage_bind hlines, hP.merge, usage_fieldLines_iff hP hlines, declareModel_eq]
    grind

theorem mapM'_annotate (members : List (TypeRef Empty)) :
    ((members.map .widen).mapM' t.annotate).result = .ok (members.map t.typeOf) := by
  rw [Written.result_mapM', mapM'_eq_ok_iff, List.map_map, List.map_map]
  exact List.map_congr_left fun m _ => t.result_annotate_widen m

/-- The declared types among the members of a union. -/
def memberNames (types : List ResolvedType) : List String :=
  (types.filter (·.expr.isReference)).map (·.id)

theorem memberNames_map_typeOf (members : List (TypeRef Empty)) :
    memberNames (members.map t.typeOf) =
      (members.map (·.innermost)).filter fun n => !t.contains n := by
  induction members with
  | nil => rfl
  | cons m members ih =>
    rw [memberNames] at ih ⊢
    rw [List.map_cons, List.map_cons, List.filter_cons, List.filter_cons, t.isReference_typeOf]
    cases hm : t.contains m.innermost with
    | true => exact ih
    | false => exact congrArg₂ _ (ScalarTable.id_typeOf_of_not_contains hm) ih

/-- The declared members become edges in order, and are gathered in the same order. -/
theorem foldlM_addMember (name : String) (types : List ResolvedType) (names : List String) :
    types.foldlM (addMember name) names =
      ⟨{}, (memberNames types).map (.edge name), .ok (names ++ memberNames types)⟩ := by
  induction types generalizing names with
  | nil => simp [memberNames]
  | cons r types ih =>
    rw [List.foldlM_cons, addMember]
    cases hr : r.expr.isReference with
    | true =>
      have hnames : memberNames (r :: types) = r.id :: memberNames types := by simp [memberNames, hr]
      simp [Written.call, ih, hnames]
    | false =>
      have hnames : memberNames (r :: types) = memberNames types := by simp [memberNames, hr]
      simp [ih, hnames]

/-- The texts of the members of a union. -/
def memberTexts (types : List ResolvedType) : Except Failure (List String) :=
  types.mapM' fun r => r.stripOptional.expr.write false

section

variable {name : String} {members : List (TypeRef Gap)} {types : List ResolvedType}

/-- The declaration of a union whose members resolve. -/
theorem declareUnion_of_ok (h : (members.mapM' t.annotate).result = .ok types) :
    declareUnion t name members =
      ⟨(members.mapM' t.annotate).usage.merge (.ofFeatures [.union]),
        entryCalls name (memberNames types),
        (memberTexts types).map fun texts =>
          ⟨name, .union, .unionAlias name texts, memberNames types⟩⟩ := by
  have hcalls := Written.calls_mapM'_eq_nil t.calls_annotate members
  rw [declareUnion]
  generalize members.mapM' t.annotate = w at h hcalls
  obtain ⟨u, calls, r⟩ := w
  obtain rfl : r = .ok types := h
  obtain rfl : calls = [] := hcalls
  rw [Written.ok_bind, memberTexts]
  cases types.mapM' fun r => r.stripOptional.expr.write false <;>
    simp [Written.use, Written.call, Written.ofExcept, foldlM_addMember, entryCalls, Except.map]

/-- What a member resolves to can be written. -/
theorem exists_memberTexts (h : (members.mapM' t.annotate).result = .ok types) :
    ∃ texts, memberTexts types = .ok texts := by
  rw [Written.result_mapM', mapM'_eq_ok_iff] at h
  have htexts : ReportsFirst (types.flatMap fun _ => []) (memberTexts types) := by
    refine ReportsFirst.mapM' fun r hr => ?_
    obtain ⟨m, -, hm⟩ := exists_of_map_eq_ok h hr
    refine TypeExpr.exists_write ?_ false
    exact (TypeExpr.leaf_stripOptional _).trans_ne (ScalarTable.leaf_ne_blank_of_annotate hm)
  rwa [List.flatMap_eq_nil_iff.mpr fun _ _ => rfl] at htexts

end

theorem declareUnion_ok {name : String} {members : List (TypeRef Empty)} {D : Declaration}
    (h : (declareUnion t name (members.map .widen)).result = .ok D) :
    (∃ texts : List String,
        (members.map fun r => (t.typeOf r).stripOptional.expr.write false) = texts.map .ok ∧
        D = ⟨name, .union, .unionAlias name texts,
          (members.map (·.innermost)).filter fun n => !t.contains n⟩) ∧
      ∀ {P : Usage → Prop}, Usage.Additive P →
        (P (declareUnion t name (members.map .widen)).usage ↔
          (∃ r ∈ members, P (t.usageOf r.widen)) ∨ P (.ofFeatures [.union])) := by
  rw [declareUnion_of_ok (mapM'_annotate members), memberNames_map_typeOf] at h ⊢
  obtain ⟨texts, htexts, rfl⟩ := map_eq_ok_iff.mp h
  rw [memberTexts, mapM'_eq_ok_iff, List.map_map] at htexts
  refine ⟨⟨texts, htexts, rfl⟩, fun {P} hP => ?_⟩
  rw [hP.merge, Written.usage_mapM' hP (mapM'_annotate members)]
  simp only [List.mem_map, exists_exists_and_eq_and, ScalarTable.annotate_widen]

theorem declareEnum_eq (name : String) (values : List String) :
    declareEnum name values =
      match values.find? Text.isKeyword with
      | some value => ⟨{}, [], .error (.invalidIdentifier name value)⟩
      | none => ⟨.ofFeatures [.enum], entryCalls name [], .ok (.ofEnum name values)⟩ := by
  unfold declareEnum
  cases values.find? Text.isKeyword <;> rfl

/-- An object type uses the names of its interfaces, and what its fields use. -/
theorem declare_object (name : String) (position : Nat) (fields : List (Field Empty))
    (interfaces : List String) :
    o.declare t (Definition.widen ⟨name, position, .object fields interfaces⟩) =
      Written.use (.ofReferenced interfaces) >>= fun _ =>
        o.fieldLines t name (fields.map .widen) >>= declareModel name .object interfaces :=
  rfl

theorem declares_of_ok {d : Definition Empty} {D : Declaration}
    (h : (o.declare t d.widen).result = .ok D) : Declares o t d (o.declare t d.widen) D := by
  obtain ⟨name, position, content⟩ := d
  have hnone : ∀ {P : Usage → Prop}, Usage.Additive P → ¬P (.ofReferenced []) := fun hP => hP.empty
  cases content with
  | enum values =>
    change (declareEnum name values).result = .ok D at h
    change Declares o t _ (declareEnum name values) D
    rw [declareEnum_eq] at h ⊢
    cases hfind : values.find? Text.isKeyword with
    | some value =>
      rw [hfind] at h
      cases h
    | none =>
      rw [hfind] at h
      cases h
      refine ⟨rfl, rfl, rfl, rfl, rfl, fun hP => ?_⟩
      simp [UsesSome, Content.types, Content.kind, Kind.feature, hnone hP]
  | union members =>
    obtain ⟨⟨texts, htexts, rfl⟩, husage⟩ := declareUnion_ok h
    refine ⟨rfl, rfl, rfl, ⟨texts, htexts, rfl⟩, ?_, fun hP => (husage hP).trans ?_⟩
    · exact (List.append_nil _).symm
    · simp [UsesSome, Content.types, Content.kind, Kind.feature, hnone hP, or_comm]
  | interface fields | input fields =>
    obtain ⟨⟨attributes, hattributes, rfl⟩, husage⟩ := declareModel_ok h
    refine ⟨rfl, rfl, rfl, ⟨attributes, hattributes, rfl⟩, rfl, fun hP => (husage hP).trans ?_⟩
    simp [UsesSome, Content.types, Content.kind, Kind.feature, hnone hP]
  | object fields interfaces =>
    rw [declare_object, Written.use, Written.ok_bind] at h ⊢
    obtain ⟨⟨attributes, hattributes, rfl⟩, husage⟩ := declareModel_ok h
    refine ⟨rfl, rfl, rfl, ⟨attributes, hattributes, rfl⟩, rfl, fun hP => ?_⟩
    rw [hP.merge, husage hP]
    simp only [UsesSome, Content.types, Content.kind, Kind.feature, Content.fields, Content.members,
      Content.interfaces, List.append_nil, List.mem_map, exists_exists_and_eq_and]
    exact or_left_comm
  | other gap => exact gap.elim

theorem stable_fieldLines {Q : Usage → Prop} (hQ : Usage.Stable Q) (owner : String)
    (fields : List (Field Gap)) : Q (o.fieldLines t owner fields).usage := by
  refine Written.stable_bind hQ ?_ fun _ => hQ.empty
  refine Written.stable_mapM' hQ (fun f => ?_) fields
  refine Written.stable_bind hQ (ScalarTable.stable_annotate hQ f.type) fun type => ?_
  rw [attribute_eq]
  split
  · exact hQ.empty
  · exact hQ.ofFeatures _
  · split <;> exact hQ.empty

theorem stable_declare {Q : Usage → Prop} (hQ : Usage.Stable Q) (d : Definition Gap) :
    Q (o.declare t d).usage := by
  obtain ⟨name, position, content⟩ := d
  have hmodel (kind : Kind) (bases : List String) (fields : List (Field Gap)) :
      Q (o.fieldLines t name fields >>= declareModel name kind bases).usage := by
    refine Written.stable_bind hQ (stable_fieldLines hQ name fields) fun lines => ?_
    rw [declareModel_eq]
    exact hQ.ofFeatures _
  cases content with
  | enum values =>
    change Q (declareEnum name values).usage
    rw [declareEnum_eq]
    split
    · exact hQ.empty
    · exact hQ.ofFeatures _
  | union members =>
    refine Written.stable_bind hQ
      (Written.stable_mapM' hQ (ScalarTable.stable_annotate hQ) members) fun types => ?_
    refine Written.stable_bind hQ (hQ.ofFeatures _) fun _ => ?_
    refine Written.stable_bind hQ hQ.empty fun _ => ?_
    rw [foldlM_addMember]
    exact hQ.merge hQ.empty (Written.stable_bind hQ hQ.empty fun _ => hQ.empty)
  | interface fields => exact hmodel .interface [] fields
  | object fields interfaces =>
    exact Written.stable_bind hQ (hQ.ofReferenced _) fun _ => hmodel .object interfaces fields
  | input fields => exact hmodel .input [] fields
  | other gap => exact hQ.empty

theorem declare_congr {t' : ScalarTable} (h : ∀ name, t.target? name = t'.target? name)
    (d : Definition Gap) : o.declare t d = o.declare t' d := by
  have hannotate : t.annotate = t'.annotate := funext (ScalarTable.annotate_congr h)
  unfold Options.declare declareUnion Options.fieldLines Options.attributeOf
  rw [hannotate]

/-! ## What a definition adds to the graph -/

/-- The additions that declarations ask for, in order. -/
def entries (declared : List Declaration) : List DependencyGraph.Call :=
  declared.flatMap fun D => entryCalls D.name D.dependsOn

theorem exists_mem_entries {declared : List Declaration} {n : String} :
    (∃ c ∈ entries declared, n ∈ c.names) ↔ ∃ D ∈ declared, n = D.name ∨ n ∈ D.dependsOn := by
  simp only [← DependencyGraph.exists_mem_entryCalls, entries, List.mem_flatMap]
  grind

theorem edge_mem_entries {declared : List Declaration} {a b : String} :
    .edge a b ∈ entries declared ↔ ∃ D ∈ declared, D.name = a ∧ b ∈ D.dependsOn := by
  simp only [← DependencyGraph.edge_mem_entryCalls, entries, List.mem_flatMap]

/-- The graph and the declaration agree: an edge for each name that the declaration has to stand after,
and nothing if there is no declaration. -/
def AddsReturned (w : Written Declaration) : Prop :=
  (∃ D, w.result = .ok D ∧ w.calls = entryCalls D.name D.dependsOn) ∨
    ∃ e, w.result = .error e ∧ w.calls = []

theorem AddsReturned.bind {α : Type} {w : Written α} {f : α → Written Declaration}
    (hw : w.calls = []) (hf : ∀ a, AddsReturned (f a)) : AddsReturned (w >>= f) := by
  obtain ⟨u, calls, e | a⟩ := w
  · exact .inr ⟨e, rfl, hw⟩
  · obtain rfl : calls = [] := hw
    exact hf a

theorem addsReturned_declareEnum (name : String) (values : List String) :
    AddsReturned (declareEnum name values) := by
  rw [declareEnum_eq]
  cases values.find? Text.isKeyword with
  | some value => exact .inr ⟨_, rfl, rfl⟩
  | none => exact .inl ⟨_, rfl, rfl⟩

theorem addsReturned_declareUnion (name : String) (members : List (TypeRef Gap)) :
    AddsReturned (declareUnion t name members) := by
  rcases htypes : (members.mapM' t.annotate).result with e | types
  · rw [declareUnion, Written.bind_of_error htypes]
    exact .inr ⟨e, rfl, Written.calls_mapM'_eq_nil t.calls_annotate members⟩
  · -- the edges are there before the texts, so it matters that a resolved member has one
    obtain ⟨texts, htexts⟩ := exists_memberTexts htypes
    rw [declareUnion_of_ok htypes, htexts]
    exact .inl ⟨_, rfl, rfl⟩

theorem addsReturned_declareModel (name : String) (kind : Kind) (bases : List String)
    (fields : List (Field Gap)) :
    AddsReturned (o.fieldLines t name fields >>= declareModel name kind bases) := by
  refine .bind (calls_fieldLines fields) fun lines => ?_
  rw [declareModel_eq]
  exact .inl ⟨_, rfl, rfl⟩

theorem addsReturned_declare (d : Definition Gap) : AddsReturned (o.declare t d) := by
  obtain ⟨name, position, content⟩ := d
  cases content with
  | enum values => exact addsReturned_declareEnum name values
  | union members => exact addsReturned_declareUnion name members
  | interface fields => exact addsReturned_declareModel name .interface [] fields
  | object fields interfaces =>
    exact .bind rfl fun _ => addsReturned_declareModel name .object interfaces fields
  | input fields => exact addsReturned_declareModel name .input [] fields
  | other gap => exact .inr ⟨_, rfl, rfl⟩

theorem calls_declare_of_ok {d : Definition Gap} {D : Declaration}
    (h : (o.declare t d).result = .ok D) :
    (o.declare t d).calls = entryCalls D.name D.dependsOn := by
  obtain ⟨D', hD', hcalls⟩ | ⟨e, he, -⟩ := addsReturned_declare (o := o) (t := t) d
  · cases hD'.symm.trans h
    exact hcalls
  · cases he.symm.trans h

theorem calls_declare_of_error {d : Definition Gap} {e : Failure}
    (h : (o.declare t d).result = .error e) : (o.declare t d).calls = [] := by
  obtain ⟨D, hD, -⟩ | ⟨e, -, hcalls⟩ := addsReturned_declare (o := o) (t := t) d
  · cases hD.symm.trans h
  · exact hcalls

/-! ## The first refusal -/

theorem reportsFirst_declareEnum (name : String) (values : List String) :
    ReportsFirst ((values.filter Text.isKeyword).map (.invalidIdentifier name))
      (declareEnum name values).result := by
  rw [declareEnum_eq, ← List.head?_filter]
  cases values.filter Text.isKeyword with
  | nil => exact ⟨_, rfl⟩
  | cons value values => rfl

theorem exists_declareUnion (name : String) (members : List (TypeRef Empty)) :
    ∃ D, (declareUnion t name (members.map .widen)).result = .ok D := by
  obtain ⟨texts, htexts⟩ := exists_memberTexts (mapM'_annotate (t := t) members)
  rw [declareUnion_of_ok (mapM'_annotate members), htexts]
  exact ⟨_, rfl⟩

theorem reportsFirst_declareModel {reserved : List String} (hreserved : o.reserved = .oneOf reserved)
    (name : String) (kind : Kind) (bases : List String) (fields : List (Field Empty)) :
    ReportsFirst (((fields.map (·.name)).filter (clashes reserved)).map (.invalidIdentifier name))
      (o.fieldLines t name (fields.map .widen) >>= declareModel name kind bases).result := by
  simp only [Written.result_bind, declareModel_eq]
  exact (reportsFirst_fieldLines hreserved).map (Declaration.ofModel name kind bases)

/-- A definition is refused for the first of its offences, and declared if it has none. -/
theorem reportsFirst_declare {reserved : List String} (hreserved : o.reserved = .oneOf reserved)
    (d : Definition Empty) :
    ReportsFirst ((d.content.offences reserved).map (.invalidIdentifier d.name))
      (o.declare t d.widen).result := by
  obtain ⟨name, position, content⟩ := d
  cases content with
  | enum values => exact reportsFirst_declareEnum name values
  | union members => exact exists_declareUnion name members
  | interface fields => exact reportsFirst_declareModel hreserved name .interface [] fields
  | object fields interfaces =>
    rw [declare_object, Written.use, Written.ok_bind]
    exact reportsFirst_declareModel hreserved name .object interfaces fields
  | input fields => exact reportsFirst_declareModel hreserved name .input [] fields
  | other gap => exact gap.elim

end SchemaModels
