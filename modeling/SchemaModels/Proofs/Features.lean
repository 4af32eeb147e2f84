import SchemaModels.Proofs.Header

/-! # The imports that a document calls for

After a run, what the session has registered can be read off the definitions of the document: each
feature is there for a reason of its own (`Content.CallsFor`) and not without it, and so is each name. A
type counts with all its lists and with its innermost name: it is registered before non-null wrappers
take layers away. -/

namespace SchemaModels

/-- Whether a list stands somewhere in a reference. -/
def TypeRef.hasList : TypeRef Empty → Bool
  | named _ => false
  | list _ => true
  | nonNull inner => inner.hasList

/-- What it is in a definition that calls for a feature. -/
def Content.CallsFor (o : Options) (t : ScalarTable) (c : Content Empty) : Feature → Prop
  | .enum => c.kind = .enum
  | .union => c.kind = .union
  | .modelBase => c.kind = .interface ∨ c.kind = .object ∨ c.kind = .input
  | .fieldAlias => ∃ f ∈ c.fields, o.Reserves f.name
  | .list => ∃ r ∈ c.types, r.hasList = true
  | .dynamic => ∃ r ∈ c.types, t.target? r.innermost = some anyType
  | .optional => ∃ r ∈ c.types, r.hasList = true ∨ t.target? r.innermost ≠ some anyType

/-! ## The features of a type -/

namespace ScalarTable

variable {t : ScalarTable} {f : Feature}

theorem mem_features_usageOfName {name : String} :
    f ∈ (t.usageOfName name).imports.features ↔
      (t.target? name = some anyType ∧ f = .dynamic) ∨
        (t.target? name ≠ some anyType ∧ f = .optional) := by
  unfold usageOfName
  cases htarget : t.target? name with
  | none => simp [Usage.ofReferenced]
  | some target =>
    by_cases hany : target = anyType
    · simp [hany]
    · simp only [beq_iff_eq, hany, Option.some.injEq, if_false]
      cases dotted? target <;> simp [Usage.ofName, Imports.registerName, hany]

/-- A reference uses the feature of its innermost name, and with a list those of lists. -/
theorem mem_features_usageOf (ref : TypeRef Empty) :
    f ∈ (t.usageOf ref.widen).imports.features ↔
      (ref.hasList = true ∧ (f = .list ∨ f = .optional)) ∨
        (t.target? ref.innermost = some anyType ∧ f = .dynamic) ∨
        (t.target? ref.innermost ≠ some anyType ∧ f = .optional) := by
  induction ref with
  | named name =>
    refine mem_features_usageOfName.trans (or_iff_right ?_).symm
    exact fun h => Bool.false_ne_true h.1
  | list item ih =>
    change f ∈ ((t.usageOf item.widen).merge (.ofFeatures [.list, .optional])).imports.features ↔ _
    rw [Usage.mem_features_merge, ih, mem_features_ofFeatures, List.mem_pair, TypeRef.innermost]
    simp only [TypeRef.hasList, true_and]
    tauto
  | nonNull inner ih => exact ih
  | other gap => exact gap.elim

end ScalarTable

/-! ## The features of a definition -/

variable {o : Options} {t : ScalarTable} {ds : List (Definition Empty)}

theorem Kind.feature_eq_iff {k : Kind} {f : Feature} :
    f = k.feature ↔ (f = .enum ∧ k = .enum) ∨ (f = .union ∧ k = .union) ∨
      (f = .modelBase ∧ (k = .interface ∨ k = .object ∨ k = .input)) := by
  cases k <;> simp [Kind.feature]

theorem usesSome_features {c : Content Empty} {f : Feature} :
    UsesSome o t c (f ∈ ·.imports.features) ↔ c.CallsFor o t f := by
  have hreferenced : f ∉ (Usage.ofReferenced c.interfaces).imports.features := List.not_mem_nil
  simp only [UsesSome, ScalarTable.mem_features_ofFeatures, List.mem_singleton, hreferenced, false_or,
    ScalarTable.mem_features_usageOf, Kind.feature_eq_iff]
  -- what remains is which of the reasons are for `f`
  cases f <;> simp only [Content.CallsFor, reduceCtorEq, false_and, and_false, and_true, true_and,
    false_or, or_false, or_true, exists_false, and_or_left, exists_or]

/-- The registered features are those that some definition calls for. -/
theorem Session.Covers.mem_features {s : Session} (H : s.Covers o t ds) {f : Feature} :
    f ∈ s.usage.imports.features ↔ ∃ d ∈ ds, d.content.CallsFor o t f := by
  simp only [H.usage_iff (Usage.additive_features f), usesSome_features]

/-! ## The imports of a run -/

namespace Generator

variable {doc : Document} {comment : String} {m : GeneratedModule}

/-- The imports of a module are those that its document calls for. The features that the session has
registered at the end are those for which there is a reason in some definition, and the names are the
targets of scalars in use, split at their last full stop. -/
theorem imports_called_for (h : (ofDocument o doc comment).result = .ok m) :
    ∃ (overrides : Overrides) (s : Session), o.overrides = .ok overrides ∧
      (declareSchema o (Schema.ofDocument doc).1).result = .ok s ∧
      m.header = s.usage.imports.header ∧
      (∀ f, f ∈ s.usage.imports.features ↔
        ∃ d ∈ doc.definitions, d.content.CallsFor o (doc.scalarTable overrides) f) ∧
      ∀ n, n ∈ s.usage.imports.names ↔
        ∃ d ∈ doc.definitions, ∃ r ∈ d.content.types, ∃ target,
          (doc.scalarTable overrides).target? r.innermost = some target ∧
          target = n.module ++ "." ++ n.name ∧ '.' ∉ n.name.toList := by
  obtain ⟨s, ds, hs, -, -, hheader, -⟩ := exists_declared_of_ok h
  obtain ⟨overrides, hoverrides⟩ := exists_overrides hs
  have hcovers := covers_of_declareSchema hoverrides hs
  refine ⟨overrides, s, hoverrides, hs, hheader, fun f => hcovers.mem_features, fun n => ?_⟩
  simp only [hcovers.mem_names, UsesScalarOf, dotted?_eq_some_iff]

/-- An enum and an extended type with dates from a module, a scalar for any value, a reserved field and
a list, but without a union. -/
theorem imports_called_for_dates :
    let o : Options := { overrides := .ok ⟨⟨[("Date", "datetime.date")]⟩, []⟩ }
    let doc : Document := ⟨[.scalar "JSON", .definition "Colour" (.enum ["RED"]),
      .definition "Cat" (.object [⟨"copy", .nonNull (.named "JSON")⟩] []),
      .extension "Cat" (.object [⟨"dates", .nonNull (.list (.nonNull (.named "Date")))⟩] [])]⟩
    ∃ (m : GeneratedModule) (s : Session), (ofDocument o doc "").result = .ok m ∧
      (declareSchema o (Schema.ofDocument doc).1).result = .ok s ∧
      m.header = s.usage.imports.header ∧
      (∀ f, f ∈ s.usage.imports.features ↔ f ≠ .union) ∧
      ∀ n, n ∈ s.usage.imports.names ↔ n = ⟨"datetime", "date"⟩ := by
  intro o doc
  have hrun : (ofDocument o doc "").result.toOption.map (·.header) =
      some ("from enum import Enum\nfrom datetime import date\nfrom typing import Any, Optional, List\n" ++
        "from pydantic import BaseModel, Field") := by decide +kernel
  obtain ⟨m, hm, -⟩ := Option.map_eq_some_iff.mp hrun
  have hm := eq_ok_of_toOption hm
  obtain ⟨overrides, s, hoverrides, hs, hheader, hfeatures, hnames⟩ := imports_called_for hm
  cases hoverrides
  have hdefinitions : doc.definitions = [⟨"Colour", 1, .enum ["RED"]⟩,
      ⟨"Cat", 2, .object [⟨"copy", .nonNull (.named "JSON")⟩,
        ⟨"dates", .nonNull (.list (.nonNull (.named "Date")))⟩] []⟩] := by decide +kernel
  have hjson : (doc.scalarTable ⟨⟨[("Date", "datetime.date")]⟩, []⟩).target? "JSON" = some anyType := by
    decide +kernel
  have hdate : (doc.scalarTable ⟨⟨[("Date", "datetime.date")]⟩, []⟩).target? "Date" =
      some "datetime.date" := by decide +kernel
  have hcopy : o.Reserves "copy" := by
    unfold Options.Reserves
    decide +kernel
  refine ⟨m, s, hm, hs, hheader, fun f => (hfeatures f).trans ?_, fun n => (hnames n).trans ?_⟩
  · rw [hdefinitions]
    cases f <;> simp [Content.CallsFor, Content.kind, Content.types, TypeRef.hasList, TypeRef.innermost,
      hjson, hdate, hcopy]
  · have hany : dotted? anyType = none := by decide
    have hdotted : dotted? "datetime.date" = some ("datetime", "date") := by decide
    obtain ⟨module, name⟩ := n
    simp only [hdefinitions, ← dotted?_eq_some_iff]
    simp [Content.types, TypeRef.innermost, hjson, hdate, hany, hdotted, eq_comm]

end Generator

end SchemaModels
