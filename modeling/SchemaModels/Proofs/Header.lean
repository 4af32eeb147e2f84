import SchemaModels.Proofs.Emission
import SchemaModels.Proofs.ScalarTable

/-! # What a module imports

What a block is written with was used when its definition was declared, and all that was used is on a
line of the header. The lines hold nothing else, so a name that is bound twice can be traced to a
scalar or to a definition that is named like a helper. -/

namespace SchemaModels

open Imports (Lists)

/-! ## What a header has to list -/

/-- A header imports what the expression for a type is written with. The table tells whether the
innermost name of the type is written as a name of a module. -/
structure Supports (header : String) (t : ScalarTable) (innermost : String) (e : TypeExpr) : Prop where
  optional : ∀ {x}, .optional x ∈ e.parts → Lists header "typing" "Optional"
  list : ∀ {x}, .list x ∈ e.parts → Lists header "typing" "List"
  dynamic : .dynamic ∈ e.parts → Lists header "typing" "Any"
  scalar : ∀ {target module short}, t.target? innermost = some target →
    dotted? target = some (module, short) → e.leaf = .scalar short ∧ Lists header module short

/-- A header imports what the block of a definition is written with, its types apart. -/
structure Serves (header : String) (o : Options) (t : ScalarTable) (d : Definition Empty) (b : Block) :
    Prop where
  enum : d.content.kind = .enum → Lists header "enum" "Enum"
  union : d.content.kind = .union → Lists header "typing" "Union"
  base : ∀ {name bases body}, b = .classBody name bases body → "BaseModel" ∈ bases →
    Lists header "pydantic" "BaseModel"
  field : ∀ f ∈ d.content.fields, ∀ a, (o.attributeOf t d.name f.widen).result = .ok a →
    a.alias?.isSome = true → Lists header "pydantic" "Field"

/-- A type of some definitions is written as a name of a module. -/
def UsesScalarOf (t : ScalarTable) (ds : List (Definition Empty)) (module name : String) : Prop :=
  ∃ d ∈ ds, ∃ r ∈ d.content.types, ∃ target,
    t.target? r.innermost = some target ∧ dotted? target = some (module, name)

/-- No two features import one name from different modules. -/
theorem Feature.module_of_name {f f' : Feature} {name module module' : String}
    (h : f.imported = ⟨module, name⟩) (h' : f'.imported = ⟨module', name⟩) : module = module' := by
  have hinj : ∀ f ∈ Feature.all, ∀ f' ∈ Feature.all, f.imported.name = f'.imported.name →
      f.imported.module = f'.imported.module := by decide
  have hall : ∀ f : Feature, f ∈ Feature.all := by
    intro f
    cases f <;> decide
  have hmodules := hinj f (hall f) f' (hall f')
  rw [h, h'] at hmodules
  exact hmodules rfl

variable {o : Options} {t : ScalarTable} {ds : List (Definition Empty)}

theorem feature_of_base {name owner : String} {c : Content Empty} {bases body : List String}
    (h : Writes o t owner c (.classBody name bases body)) (hbase : "BaseModel" ∈ bases) :
    c.kind.feature = .modelBase := by
  cases c with
  | enum values =>
    cases h
    exact absurd hbase (by decide)
  | union members =>
    obtain ⟨texts, -, hblock⟩ := h
    cases hblock
  | interface | object | input => rfl
  | other gap => exact gap.elim

/-! ## What a session registers -/

namespace Session.Covers

variable {s : Session} {d : Definition Empty}

theorem feature_of_kind (H : s.Covers o t ds) (hd : d ∈ ds) :
    d.content.kind.feature ∈ s.usage.imports.features := by
  rw [H.usage_iff (Usage.additive_features _)]
  exact ⟨d, hd, .inl (ScalarTable.mem_features_ofFeatures.mpr (List.mem_singleton_self _))⟩

theorem feature_of_reserved (H : s.Covers o t ds) (hd : d ∈ ds) {f : Field Empty}
    (hf : f ∈ d.content.fields) (hreserved : o.Reserves f.name) :
    .fieldAlias ∈ s.usage.imports.features := by
  rw [H.usage_iff (Usage.additive_features _)]
  have halias := ScalarTable.mem_features_ofFeatures.mpr (List.mem_singleton_self Feature.fieldAlias)
  exact ⟨d, hd, .inr (.inr (.inr ⟨⟨f, hf, hreserved⟩, halias⟩))⟩

theorem feature_of_part (H : s.Covers o t ds) (hd : d ∈ ds) {r : TypeRef Empty}
    (hr : r ∈ d.content.types) {e : TypeExpr} (he : e ∈ (t.typeOf r).expr.parts) {f : Feature}
    (hf : e.feature? = some f) : f ∈ s.usage.imports.features := by
  rw [H.usage_iff (Usage.additive_features f)]
  exact ⟨d, hd, .inr (.inr (.inl ⟨r, hr, ScalarTable.feature_mem_usageOf r he hf⟩))⟩

/-- The registered names are those of the scalars in use. -/
theorem mem_names (H : s.Covers o t ds) {n : ImportedName} :
    n ∈ s.usage.imports.names ↔ UsesScalarOf t ds n.module n.name := by
  rw [H.usage_iff (Usage.additive_names n)]
  refine exists_congr fun d => and_congr_right fun _ => ?_
  have hfeatures : ∀ fs, n ∉ (Usage.ofFeatures fs).imports.names := fun _ => List.not_mem_nil
  have hreferenced : ∀ names, n ∉ (Usage.ofReferenced names).imports.names := fun _ =>
    List.not_mem_nil
  simp only [UsesSome, hfeatures, hreferenced, false_or, and_false, or_false,
    ScalarTable.mem_names_usageOf]

section

variable {custom : List String} {overrides : Overrides}
  (H : s.Covers o (.ofCustom custom overrides) ds)
  (htargets : ∀ target ∈ overrides.named.values, Text.isDottedIdentifier target = true)

include H htargets

theorem readable : s.usage.imports.Readable := by
  intro n hn
  obtain ⟨d, -, r, -, target, htarget, hdotted⟩ := H.mem_names.mp hn
  exact plain_of_dotted hdotted (ScalarTable.plain_of_target? htargets htarget)

theorem lists_iff {module name : String} :
    Lists s.header module name ↔
      (∃ f, s.usage.imports.uses f = true ∧ f.imported = ⟨module, name⟩) ∨
        UsesScalarOf (.ofCustom custom overrides) ds module name := by
  rw [header, (H.readable htargets).lists_iff, H.mem_names]

theorem lists_of_feature {f : Feature} (hf : f ∈ s.usage.imports.features) :
    Lists s.header f.imported.module f.imported.name := by
  refine (H.lists_iff htargets).mpr (.inl ⟨f, ?_, rfl⟩)
  rw [Imports.uses, List.contains_iff_mem.mpr hf, Bool.true_or]

/-- All parts of a type are supported, also those of a part of it that has the same leaf. -/
theorem supports (hd : d ∈ ds) {r : TypeRef Empty} (hr : r ∈ d.content.types) {e : TypeExpr}
    (he : e.parts ⊆ ((ScalarTable.ofCustom custom overrides).typeOf r).expr.parts)
    (hleaf : e.leaf = ((ScalarTable.ofCustom custom overrides).typeOf r).expr.leaf) :
    Supports s.header (.ofCustom custom overrides) r.innermost e where
  optional hx := H.lists_of_feature htargets (H.feature_of_part hd hr (he hx) rfl)
  list hx := H.lists_of_feature htargets (H.feature_of_part hd hr (he hx) rfl)
  dynamic hx := H.lists_of_feature htargets (H.feature_of_part hd hr (he hx) rfl)
  scalar htarget hdotted :=
    ⟨hleaf.trans (ScalarTable.leaf_typeOf_of_dotted htarget hdotted),
      (H.lists_iff htargets).mpr (.inr ⟨d, hd, r, hr, _, htarget, hdotted⟩)⟩

theorem serves (hd : d ∈ ds) {D : Declaration}
    (hD : (o.declare (.ofCustom custom overrides) d.widen).result = .ok D) :
    Serves s.header o (.ofCustom custom overrides) d D.block := by
  have hkind := H.lists_of_feature htargets (H.feature_of_kind hd)
  refine ⟨fun h => ?_, fun h => ?_, fun hblock hbase => ?_, fun f hf a ha halias => ?_⟩
  · rwa [h] at hkind
  · rwa [h] at hkind
  · have hwrites := (declares_of_ok hD).writes
    rw [hblock] at hwrites
    rwa [feature_of_base hwrites hbase] at hkind
  · exact H.lists_of_feature htargets (H.feature_of_reserved hd hf (reserves_of_alias ha halias))

end

end Session.Covers

/-! ## The header of a module -/

namespace Generator

open Session

variable {doc : Document} {comment : String} {m : GeneratedModule} {overrides : Overrides}

/-- Every helper with which a module is written is imported. For each field and each member of a union
this holds of the whole expression for its type, and for each block of its bases, its fields and the
kind of its definition. -/
theorem header_lists_helpers (hoverrides : o.overrides = .ok overrides)
    (htargets : ∀ target ∈ overrides.named.values, Text.isDottedIdentifier target = true)
    (h : (ofDocument o doc comment).result = .ok m) :
    let t := doc.scalarTable overrides
    (∀ d ∈ doc.definitions,
      (∀ f ∈ d.content.fields, ∃ type, (t.annotate f.type.widen).result = .ok type ∧
        Supports m.header t f.type.innermost type.expr) ∧
      (∀ r ∈ d.content.members, ∃ type, (t.annotate r.widen).result = .ok type ∧
        Supports m.header t r.innermost type.stripOptional.expr)) ∧
    ∃ ds, emitted o doc = .ok ds ∧ m.body = "\n\n".intercalate (ds.map (·.block.text)) ∧
      ∀ D ∈ ds, ∃ d ∈ doc.definitions, Writes o t d.name d.content D.block ∧
        Serves m.header o t d D.block := by
  intro t
  obtain ⟨s, ds, hcovers, hds, hemitted, hheader, hbody⟩ := exists_emitted_of_ok hoverrides h
  rw [hheader]
  refine ⟨fun d hd => ⟨fun f hf => ?_, fun r hr => ?_⟩, ds, hemitted, hbody, fun D hD => ?_⟩
  · have htype : f.type ∈ d.content.types := List.mem_append_left _ (List.mem_map_of_mem hf)
    exact ⟨_, t.result_annotate_widen f.type,
      hcovers.supports htargets hd htype (List.Subset.refl _) rfl⟩
  · have htype : r ∈ d.content.types := List.mem_append_right _ hr
    exact ⟨_, t.result_annotate_widen r, hcovers.supports htargets hd htype
      (TypeExpr.parts_stripOptional_subset _) (TypeExpr.leaf_stripOptional _)⟩
  · obtain ⟨hget, -⟩ := (hcovers.mem_emitted hds).mp hD
    obtain ⟨d, hd, -, hok⟩ := hcovers.declared hget
    exact ⟨d, hd, (declares_of_ok hok).writes, hcovers.serves htargets hd hok⟩

/-- A module with an enum, a union, a reserved field, a scalar of a module and one of any value. -/
theorem header_lists_helpers_dates :
    let overrides : Overrides := ⟨⟨[("Date", "datetime.date")]⟩, []⟩
    let o : Options := { overrides := .ok overrides }
    let doc : Document := ⟨[.definition "Pet" (.union [.named "Cat", .named "Date"]),
      .definition "Cat" (.object [⟨"copy", .nonNull (.list (.named "Date"))⟩, ⟨"tag", .named "Tag"⟩] []),
      .definition "Colour" (.enum ["RED"]), .scalar "Tag"]⟩
    (∀ target ∈ overrides.named.values, Text.isDottedIdentifier target = true) ∧
      ∃ m, (ofDocument o doc "").result = .ok m ∧
        m.header = "from enum import Enum\nfrom datetime import date\n" ++
          "from typing import Any, Optional, List, Union\nfrom pydantic import BaseModel, Field" ∧
        Supports m.header (doc.scalarTable overrides) "Date" (.list (.optional (.scalar "date"))) ∧
        ∃ ds, emitted o doc = .ok ds ∧ m.body = "\n\n".intercalate (ds.map (·.block.text)) ∧
          ∀ D ∈ ds, ∃ d ∈ doc.definitions,
            Serves m.header o (doc.scalarTable overrides) d D.block := by
  intro overrides o doc
  have htargets : ∀ target ∈ overrides.named.values, Text.isDottedIdentifier target = true := by
    decide +kernel
  have hrun : (ofDocument o doc "").result.toOption.map (·.header) =
      some ("from enum import Enum\nfrom datetime import date\n" ++
        "from typing import Any, Optional, List, Union\nfrom pydantic import BaseModel, Field") := by
    decide +kernel
  obtain ⟨m, hm, hheader⟩ := Option.map_eq_some_iff.mp hrun
  have hm := eq_ok_of_toOption hm
  obtain ⟨htypes, ds, hds, hbody, hblocks⟩ := header_lists_helpers rfl htargets hm
  let cat : Definition Empty := ⟨"Cat", 1, .object
    [⟨"copy", .nonNull (.list (.named "Date"))⟩, ⟨"tag", .named "Tag"⟩] []⟩
  have hcat : cat ∈ doc.definitions := by decide +kernel
  obtain ⟨type, htype, hsupports⟩ := (htypes cat hcat).1 _ List.mem_cons_self
  cases htype
  refine ⟨htargets, m, hm, hheader, hsupports, ds, hds, hbody, fun D hD => ?_⟩
  obtain ⟨d, hd, -, hserves⟩ := hblocks D hD
  exact ⟨d, hd, hserves⟩

/-! ## Names that are bound twice -/

/-- No name is bound twice at the top of a module, by two lines of the header or by a line and a
block. -/
structure BindingsDistinct (header : String) (ds : List Declaration) : Prop where
  lines : ∀ {name module module'}, Lists header module name → Lists header module' name →
    module = module'
  blocks : ∀ {name module}, Lists header module name → ∀ D ∈ ds, D.block.name ≠ name

/-- Each module has one line, and of two lines that list a name, at least one does so for a scalar in
use. A block never has the name of such a scalar, nor of the type that admits every value: what the header
lists under its name is another helper. -/
theorem clash_with_scalar_or_helper (hoverrides : o.overrides = .ok overrides)
    (htargets : ∀ target ∈ overrides.named.values, Text.isDottedIdentifier target = true)
    (h : (ofDocument o doc comment).result = .ok m) :
    let t := doc.scalarTable overrides
    ((Imports.read m.header).map (·.1)).Nodup ∧
    (∀ name module module', Lists m.header module name → Lists m.header module' name →
      module ≠ module' →
        UsesScalarOf t doc.definitions module name ∨ UsesScalarOf t doc.definitions module' name) ∧
    ∃ ds, emitted o doc = .ok ds ∧ m.body = "\n\n".intercalate (ds.map (·.block.text)) ∧
      ∀ D ∈ ds, ∀ module, ¬UsesScalarOf t doc.definitions module D.block.name ∧
        (Lists m.header module D.block.name →
          ∃ f : Feature, f ≠ .dynamic ∧ f.imported = ⟨module, D.block.name⟩) := by
  intro t
  obtain ⟨s, ds, hcovers, hds, hemitted, hheader, hbody⟩ := exists_emitted_of_ok hoverrides h
  rw [hheader]
  refine ⟨?_, fun name module module' hmodule hmodule' hne => ?_, ds, hemitted, hbody,
    fun D hD module => ?_⟩
  · rw [header, (hcovers.readable htargets).read_header]
    exact Imports.nodup_groups _
  · rcases (hcovers.lists_iff htargets).mp hmodule with ⟨f, -, hf⟩ | hscalar
    · rcases (hcovers.lists_iff htargets).mp hmodule' with ⟨f', -, hf'⟩ | hscalar'
      · exact absurd (Feature.module_of_name hf hf') hne
      · exact .inr hscalar'
    · exact .inl hscalar
  · have hfree : D.block.name ∉ t.taken := by
      rw [hcovers.block_name_of_mem hds hD]
      exact ((hcovers.mem_emitted hds).mp hD).2
    have hscalar : ¬UsesScalarOf t doc.definitions module D.block.name := by
      rintro ⟨d, -, r, -, target, htarget, hdotted⟩
      have htaken := ScalarTable.shortName_mem_taken htarget
      rw [shortName, hdotted] at htaken
      exact hfree htaken
    refine ⟨hscalar, fun hlists => ?_⟩
    obtain ⟨f, -, hf⟩ := ((hcovers.lists_iff htargets).mp hlists).resolve_right hscalar
    refine ⟨f, ?_, hf⟩
    rintro rfl
    have hname : anyType = D.block.name := congrArg ImportedName.name hf
    exact hfree (hname ▸ t.anyType_mem_taken)

/-- A type named like a helper, with two scalars that are written alike. -/
theorem clash_with_scalar_or_helper_optional :
    let overrides : Overrides := ⟨⟨[("A", "m.X"), ("B", "typing.X")]⟩, []⟩
    let o : Options := { overrides := .ok overrides }
    let doc : Document :=
      ⟨[.definition "Optional" (.object [⟨"a", .named "A"⟩, ⟨"b", .nonNull (.named "B")⟩] [])]⟩
    (∀ target ∈ overrides.named.values, Text.isDottedIdentifier target = true) ∧
      ∃ m, (ofDocument o doc "").result = .ok m ∧
        (UsesScalarOf (doc.scalarTable overrides) doc.definitions "m" "X" ∨
          UsesScalarOf (doc.scalarTable overrides) doc.definitions "typing" "X") ∧
        ∃ ds, emitted o doc = .ok ds ∧ ds.map (·.block.name) = ["Optional"] ∧
          ∀ D ∈ ds, ∃ f : Feature, f ≠ .dynamic ∧ f.imported = ⟨"typing", D.block.name⟩ := by
  intro overrides o doc
  have htargets : ∀ target ∈ overrides.named.values, Text.isDottedIdentifier target = true := by
    decide +kernel
  have hrun : (ofDocument o doc "").result.toOption.map (Imports.read ·.header) =
      some [("m", ["X"]), ("typing", ["Optional", "X"]), ("pydantic", ["BaseModel"])] := by
    decide +kernel
  have hblocks : (emitted o doc).toOption.map (·.map (·.block.name)) = some ["Optional"] := by
    decide +kernel
  obtain ⟨m, hm, hheader⟩ := Option.map_eq_some_iff.mp hrun
  have hm := eq_ok_of_toOption hm
  obtain ⟨-, hlines, ds, hds, -, hclash⟩ := clash_with_scalar_or_helper rfl htargets hm
  rw [hds] at hblocks
  have hnames : ds.map (·.block.name) = ["Optional"] := Option.some.inj hblocks
  refine ⟨htargets, m, hm, hlines "X" "m" "typing" ?_ ?_ (by decide), ds, hds, hnames, fun D hD => ?_⟩
  · exact ⟨["X"], by rw [hheader]; decide, by decide⟩
  · exact ⟨["Optional", "X"], by rw [hheader]; decide, by decide⟩
  · have hname : D.block.name = "Optional" :=
      List.mem_singleton.mp (hnames ▸ List.mem_map_of_mem (f := (·.block.name)) hD)
    refine (hclash D hD "typing").2 ⟨["Optional", "X"], by rw [hheader]; decide, ?_⟩
    rw [hname]
    decide

/-- A type named like a helper is bound a second time by the header, and two scalars that are written
alike are both imported. -/
theorem bindings_not_distinct :
    let o : Options := { overrides := .ok ⟨⟨[("A", "m.X"), ("B", "typing.X")]⟩, []⟩ }
    let helper : Document := ⟨[.definition "Optional" (.object [⟨"id", .nonNull (.named "ID")⟩] [])]⟩
    let scalars : Document := ⟨[.definition "T" (.object [⟨"a", .named "A"⟩, ⟨"b", .named "B"⟩] [])]⟩
    ((helper.definitions.map (·.name)).Nodup ∧
      ∃ m ds, (ofDocument {} helper "").result = .ok m ∧ emitted {} helper = .ok ds ∧
        ¬BindingsDistinct m.header ds) ∧
    (scalars.definitions.map (·.name)).Nodup ∧
      ∃ m ds, (ofDocument o scalars "").result = .ok m ∧ emitted o scalars = .ok ds ∧
        ¬BindingsDistinct m.header ds := by
  intro o helper scalars
  constructor
  · have hrun : (ofDocument {} helper "").result.toOption.map (Imports.read ·.header) =
        some [("typing", ["Optional"]), ("pydantic", ["BaseModel"])] := by decide +kernel
    have hblocks : (emitted {} helper).toOption.map (·.map (·.block.name)) = some ["Optional"] := by
      decide +kernel
    obtain ⟨m, hm, hheader⟩ := Option.map_eq_some_iff.mp hrun
    obtain ⟨ds, hds, hnames⟩ := Option.map_eq_some_iff.mp hblocks
    refine ⟨by decide +kernel, m, ds, eq_ok_of_toOption hm, eq_ok_of_toOption hds, fun h => ?_⟩
    obtain ⟨D, hD, hname⟩ := List.mem_map.mp (hnames ▸ List.mem_singleton_self "Optional")
    have hlists : Lists m.header "typing" "Optional" :=
      ⟨["Optional"], by rw [hheader]; decide, by decide⟩
    exact h.blocks hlists D hD hname
  · have hrun : (ofDocument o scalars "").result.toOption.map (Imports.read ·.header) =
        some [("m", ["X"]), ("typing", ["Optional", "X"]), ("pydantic", ["BaseModel"])] := by
      decide +kernel
    have hblocks : (emitted o scalars).toOption.map (·.map (·.block.name)) = some ["T"] := by
      decide +kernel
    obtain ⟨m, hm, hheader⟩ := Option.map_eq_some_iff.mp hrun
    obtain ⟨ds, hds, -⟩ := Option.map_eq_some_iff.mp hblocks
    refine ⟨by decide +kernel, m, ds, eq_ok_of_toOption hm, eq_ok_of_toOption hds, fun h => ?_⟩
    have hm : Lists m.header "m" "X" := ⟨["X"], by rw [hheader]; decide, by decide⟩
    have htyping : Lists m.header "typing" "X" :=
      ⟨["Optional", "X"], by rw [hheader]; decide, by decide⟩
    exact absurd (h.lines hm htyping) (by decide)

end Generator

end SchemaModels
