import SchemaModels.Proofs.Imports

/-! # Import lines after any calls

Imports are registered by calls, in any order and any number of times. What is registered in the end
can be read off the calls (`mem_features_ofCalls`, `mem_names_ofCalls`), and the lines are a canonical
form of it: which lines there are, what each lists and in which order depends on nothing else. -/

namespace SchemaModels.Imports

/-! ## Calls -/

/-- A registration, of some features or of a name. -/
inductive Call
  | features (fs : List Feature)
  | name (n : ImportedName)
  deriving DecidableEq, Repr

def apply (i : Imports) : Call → Imports
  | .features fs => i.register fs
  | .name n => i.registerName n

/-- The imports that a sequence of calls registers. -/
def ofCalls (calls : List Call) : Imports := calls.foldl apply {}

/-- Some call registers a feature. -/
def Registers (calls : List Call) (f : Feature) : Prop := ∃ fs, .features fs ∈ calls ∧ f ∈ fs

/-- Calls bring a name by a feature: a registered one, or the base class of models, without which there
is no field alias. -/
def Brings (calls : List Call) (n : ImportedName) : Prop :=
  (∃ f, Registers calls f ∧ f.imported = n) ∨
    (n = ⟨"pydantic", "BaseModel"⟩ ∧ Registers calls .fieldAlias)

section

variable {i : Imports} {c : Call} {calls : List Call} {f : Feature} {n : ImportedName}

theorem mem_features_apply :
    f ∈ (i.apply c).features ↔ f ∈ i.features ∨ ∃ fs, c = .features fs ∧ f ∈ fs := by
  cases c with
  | features fs => simp [apply, register]
  | name n => simp [apply, registerName]

theorem mem_names_apply : n ∈ (i.apply c).names ↔ n ∈ i.names ∨ c = .name n := by
  cases c with
  | features fs => simp [apply, register]
  | name m => simp [apply, registerName, eq_comm]

theorem nodup_names_apply (h : i.names.Nodup) (c : Call) : (i.apply c).names.Nodup := by
  cases c with
  | features fs => exact h
  | name m => exact Distinct.nodup_add h m

theorem mem_features_foldl :
    f ∈ (calls.foldl apply i).features ↔ f ∈ i.features ∨ Registers calls f := by
  induction calls generalizing i with
  | nil => simp [Registers]
  | cons c calls ih =>
    rw [List.foldl_cons, ih, mem_features_apply]
    simp only [Registers, List.mem_cons]
    grind

theorem mem_names_foldl :
    n ∈ (calls.foldl apply i).names ↔ n ∈ i.names ∨ .name n ∈ calls := by
  induction calls generalizing i with
  | nil => simp
  | cons c calls ih =>
    rw [List.foldl_cons, ih, mem_names_apply, List.mem_cons, or_assoc, @eq_comm _ c]

theorem nodup_names_foldl (h : i.names.Nodup) (calls : List Call) :
    (calls.foldl apply i).names.Nodup := by
  induction calls generalizing i with
  | nil => exact h
  | cons c calls ih => exact ih (nodup_names_apply h c)

theorem mem_features_ofCalls : f ∈ (ofCalls calls).features ↔ Registers calls f :=
  mem_features_foldl.trans (or_iff_right List.not_mem_nil)

theorem mem_names_ofCalls : n ∈ (ofCalls calls).names ↔ .name n ∈ calls :=
  mem_names_foldl.trans (or_iff_right List.not_mem_nil)

theorem nodup_names_ofCalls (calls : List Call) : (ofCalls calls).names.Nodup :=
  nodup_names_foldl List.nodup_nil calls

theorem uses_ofCalls :
    (ofCalls calls).uses f = true ↔
      Registers calls f ∨ (f = .modelBase ∧ Registers calls .fieldAlias) := by
  simp only [uses, Bool.or_eq_true, Bool.and_eq_true, List.contains_iff_mem, beq_iff_eq,
    mem_features_ofCalls]

theorem exists_uses_ofCalls :
    (∃ f, (ofCalls calls).uses f = true ∧ f.imported = n) ↔ Brings calls n := by
  simp only [uses_ofCalls, Brings, or_and_right, exists_or]
  refine or_congr_right ⟨?_, ?_⟩
  · rintro ⟨f, ⟨rfl, halias⟩, rfl⟩
    exact ⟨rfl, halias⟩
  · rintro ⟨rfl, halias⟩
    exact ⟨.modelBase, ⟨rfl, halias⟩, rfl⟩

end

/-! ## The names on a line -/

/-- The names of the features of a module, in the order in which lines list them. -/
def canonicalNames : (module : String) → List String
  | "enum" => ["Enum"]
  | "typing" => ["Any", "Optional", "List", "Union"]
  | "pydantic" => ["BaseModel", "Field"]
  | _ => []

variable {i : Imports}

theorem nodup_canonicalNames (module : String) : (canonicalNames module).Nodup := by
  unfold canonicalNames
  split <;> decide

theorem filterMap_lineOrder (module : String) :
    (Feature.lineOrder.filterMap fun f =>
      if f.imported.module == module then some f.imported.name else none) =
        canonicalNames module := by
  unfold canonicalNames
  split
  · decide
  · decide
  · decide
  · rename_i henum htyping hpydantic
    refine List.filterMap_eq_nil_iff.mpr fun f _ => if_neg fun hmodule => ?_
    obtain rfl := beq_iff_eq.mp hmodule
    cases f
    case enum => exact henum rfl
    case modelBase | fieldAlias => exact hpydantic rfl
    all_goals exact htyping rfl

theorem featureNames_sublist (i : Imports) (module : String) :
    (i.featureNames module).Sublist (canonicalNames module) := by
  rw [featureNames, ← filterMap_lineOrder]
  exact List.Sublist.filterMap _ List.filter_sublist

/-- A line lists the names of features in their fixed order, then other names in ascending order. -/
theorem exists_namesOf_eq (hnames : i.names.Nodup) (module : String) :
    ∃ rest, i.namesOf module = i.featureNames module ++ rest ∧ rest.Pairwise (· < ·) ∧
      ∀ n ∈ rest, n ∉ i.featureNames module := by
  refine ⟨_, rfl, pairwise_lt_mergeSort (List.Nodup.filter _ ?_), fun n hn => ?_⟩
  · refine List.Nodup.map_on (fun a ha b hb hname => ?_) (hnames.filter _)
    -- names of one module differ by themselves
    have hmodule : a.module = b.module :=
      (beq_iff_eq.mp (List.mem_filter.mp ha).2).trans (beq_iff_eq.mp (List.mem_filter.mp hb).2).symm
    cases a
    cases b
    simp_all
  · rw [List.mem_mergeSort, List.mem_filter] at hn
    simpa using hn.2

theorem nodup_namesOf (hnames : i.names.Nodup) (module : String) : (i.namesOf module).Nodup := by
  obtain ⟨rest, heq, hsorted, hnew⟩ := exists_namesOf_eq hnames module
  rw [heq, List.nodup_append]
  refine ⟨(nodup_canonicalNames module).sublist (featureNames_sublist i module), hsorted.nodup, ?_⟩
  rintro a ha b hb rfl
  exact hnew a hb ha

/-! ## All lines -/

/-- What the lines after some calls say, each line being a module with the names on it. -/
structure Canonical (calls : List Call) (groups : List (String × List String)) : Prop where
  modules_nodup : (groups.map (·.1)).Nodup
  modules_order : ∃ others : List String, others.Pairwise (· < ·) ∧
    (∀ m ∈ others, m ∉ ["enum", "typing", "pydantic"]) ∧
    (groups.map (·.1)).Sublist ("enum" :: others ++ ["typing", "pydantic"])
  listed : ∀ {module name}, (∃ names, (module, names) ∈ groups ∧ name ∈ names) ↔
    .name ⟨module, name⟩ ∈ calls ∨ Brings calls ⟨module, name⟩
  not_empty : ∀ g ∈ groups, g.2 ≠ []
  names_nodup : ∀ g ∈ groups, g.2.Nodup
  names_order : ∀ g ∈ groups, ∃ brought rest : List String, g.2 = brought ++ rest ∧
    brought.Sublist (canonicalNames g.1) ∧ (∀ n, n ∈ brought ↔ Brings calls ⟨g.1, n⟩) ∧
    rest.Pairwise (· < ·)

theorem canonical_groups (calls : List Call) : Canonical calls (ofCalls calls).groups where
  modules_nodup := nodup_groups _
  modules_order := by
    have hothers := pairwise_extraModules (ofCalls calls)
    refine ⟨_, hothers, fun m hm => (mem_extraModules.mp hm).2, ?_⟩
    rw [groups_map_fst]
    exact List.filter_sublist
  listed := by
    intro module name
    rw [← mem_names_ofCalls, ← exists_uses_ofCalls, or_comm, ← mem_namesOf]
    constructor
    · rintro ⟨names, hgroup, hname⟩
      rwa [(mem_groups.mp hgroup).2.1]
    · intro hname
      have hmodule := mem_modules_of_mem_namesOf hname
      exact ⟨_, mem_groups.mpr ⟨hmodule, rfl, List.ne_nil_of_mem hname⟩, hname⟩
  not_empty g hg := (mem_groups.mp hg).2.2
  names_nodup := by
    rintro ⟨module, names⟩ hg
    obtain ⟨-, rfl, -⟩ := mem_groups.mp hg
    exact nodup_namesOf (nodup_names_ofCalls calls) module
  names_order := by
    rintro ⟨module, names⟩ hg
    obtain ⟨-, rfl, -⟩ := mem_groups.mp hg
    obtain ⟨rest, heq, hsorted, -⟩ := exists_namesOf_eq (nodup_names_ofCalls calls) module
    refine ⟨_, rest, heq, featureNames_sublist _ _, fun n => ?_, hsorted⟩
    rw [mem_featureNames, exists_uses_ofCalls]

theorem readable_ofCalls {calls : List Call}
    (h : ∀ n, .name n ∈ calls →
      Text.isDottedIdentifier n.module = true ∧ Text.isIdentifier n.name = true) :
    (ofCalls calls).Readable := by
  intro n hn
  obtain ⟨hmodule, hname⟩ := h n (mem_names_ofCalls.mp hn)
  exact ⟨Text.plain_of_isDottedIdentifier hmodule, Text.plain_of_isIdentifier hname⟩

/-- The lines after any calls are a canonical form of what was registered. Each says which names it
imports from which module, and all together are as they have to be (`Canonical`): one line at most for a
module, in a fixed order; on it the names that were asked for and no others, each once, those of
features first. Other calls that register the same have the same lines. -/
theorem lines_canonical (calls : List Call)
    (hcalls : ∀ n, .name n ∈ calls →
      Text.isDottedIdentifier n.module = true ∧ Text.isIdentifier n.name = true) :
    (∃ groups, (ofCalls calls).lines = groups.map (fun g => lineOf g.1 g.2) ∧
      ((ofCalls calls).lines.map fun line => readLine line.toList) = groups.map some ∧
      Canonical calls groups) ∧
    ∀ calls', (∀ f, Registers calls' f ↔ Registers calls f) →
      (∀ n, .name n ∈ calls' ↔ .name n ∈ calls) → (ofCalls calls').lines = (ofCalls calls).lines := by
  refine ⟨⟨_, lines_eq _, ?_, canonical_groups calls⟩, fun calls' hfeatures hnames => ?_⟩
  · rw [lines_eq, List.map_map]
    exact List.map_congr_left fun g hg => (readable_ofCalls hcalls).readLine_group hg
  · refine lines_congr (fun f => ?_) ?_
    · rw [mem_features_ofCalls, mem_features_ofCalls, hfeatures]
    · rw [List.perm_ext_iff_of_nodup (nodup_names_ofCalls _) (nodup_names_ofCalls _)]
      intro n
      rw [mem_names_ofCalls, mem_names_ofCalls, hnames]

/-- A name that was registered by itself and by a feature, and a field alias without its base class. -/
theorem lines_canonical_overlap :
    let calls : List Call := [.name ⟨"typing", "Set"⟩, .features [.optional], .name ⟨"typing", "Any"⟩,
      .name ⟨"datetime", "date"⟩, .features [.fieldAlias, .dynamic]]
    let again : List Call := [.features [.dynamic, .fieldAlias, .optional, .dynamic],
      .name ⟨"datetime", "date"⟩, .name ⟨"typing", "Any"⟩, .name ⟨"typing", "Set"⟩,
      .name ⟨"datetime", "date"⟩]
    (∀ n, .name n ∈ calls →
      Text.isDottedIdentifier n.module = true ∧ Text.isIdentifier n.name = true) ∧
    (ofCalls calls).lines = ["from datetime import date", "from typing import Any, Optional, Set",
      "from pydantic import BaseModel, Field"] ∧
    (∃ groups, ((ofCalls calls).lines.map fun line => readLine line.toList) = groups.map some ∧
      Canonical calls groups) ∧
    (ofCalls again).lines = (ofCalls calls).lines := by
  intro calls again
  have hcalls : ∀ n, .name n ∈ calls →
      Text.isDottedIdentifier n.module = true ∧ Text.isIdentifier n.name = true := by
    intro n hn
    simp only [calls, List.mem_cons, Call.name.injEq, reduceCtorEq, List.not_mem_nil, or_false,
      false_or] at hn
    rcases hn with rfl | rfl | rfl <;> decide +kernel
  obtain ⟨⟨groups, -, hread, hcanonical⟩, hagain⟩ := lines_canonical calls hcalls
  refine ⟨hcalls, by decide +kernel, ⟨groups, hread, hcanonical⟩, hagain again (fun f => ?_) fun n => ?_⟩
  · rw [← mem_features_ofCalls, ← mem_features_ofCalls]
    cases f <;> decide
  · simp only [calls, again, List.mem_cons, Call.name.injEq, reduceCtorEq, List.not_mem_nil, or_false,
      false_or]
    tauto

end SchemaModels.Imports
