import SchemaModels.Proofs.Imports
import SchemaModels.Proofs.Table
import SchemaModels.ScalarTable

/-! # The targets of scalars

Where the targets of a table come from. The scalars that a document declares count as a set: their order
makes no difference that a declaration could show. -/

namespace SchemaModels

/-! ## Targets in modules -/

theorem Text.splitLastDot_eq_none_iff {cs : List Char} : splitLastDot cs = none ↔ '.' ∉ cs := by
  induction cs with
  | nil => simp [splitLastDot]
  | cons c cs ih =>
    rw [splitLastDot, List.mem_cons, not_or, ← ih]
    cases splitLastDot cs with
    | some p => simp
    | none =>
      by_cases hc : c = '.'
      · simp [hc]
      · simp [hc, Ne.symm hc]

/-- A text is split at its last full stop. -/
theorem Text.splitLastDot_eq_some_iff {cs before after : List Char} :
    splitLastDot cs = some (before, after) ↔ cs = before ++ '.' :: after ∧ '.' ∉ after := by
  induction cs generalizing before with
  | nil => simp [splitLastDot]
  | cons c cs ih =>
    rw [splitLastDot]
    cases before with
    | nil =>
      -- the first character is the last full stop: none follows
      rw [List.nil_append, List.cons.injEq]
      cases hrest : splitLastDot cs with
      | some p =>
        have hdot : '.' ∈ cs := by
          rw [← not_not (a := '.' ∈ cs), ← splitLastDot_eq_none_iff, hrest]
          exact Option.some_ne_none p
        grind
      | none =>
        have hdot := splitLastDot_eq_none_iff.mp hrest
        grind
    | cons b before =>
      rw [List.cons_append, List.cons.injEq, and_assoc, ← ih]
      cases splitLastDot cs with
      | some p => simp [Prod.ext_iff, and_assoc]
      | none => simp

theorem dotted?_eq_some_iff {target module short : String} :
    dotted? target = some (module, short) ↔
      target = module ++ "." ++ short ∧ '.' ∉ short.toList := by
  have hparts : dotted? target = some (module, short) ↔
      Text.splitLastDot target.toList = some (module.toList, short.toList) := by
    rw [dotted?, Option.map_eq_some_iff]
    constructor
    · rintro ⟨⟨before, after⟩, hsplit, heq⟩
      cases heq
      rw [hsplit, String.toList_ofList, String.toList_ofList]
    · intro hsplit
      exact ⟨_, hsplit, by rw [String.ofList_toList, String.ofList_toList]⟩
  have htext : target.toList = module.toList ++ '.' :: short.toList ↔
      target = module ++ "." ++ short := by
    rw [← String.toList_inj, String.toList_append, String.toList_append, List.append_assoc]
    exact .rfl
  rw [hparts, Text.splitLastDot_eq_some_iff, htext]

theorem plain_of_dotted {target module short : String} (h : dotted? target = some (module, short))
    (htarget : Text.Plain target) : Text.Plain module ∧ Text.Plain short := by
  obtain ⟨rfl, -⟩ := dotted?_eq_some_iff.mp h
  unfold Text.Plain at htarget ⊢
  simp only [String.toList_append, List.mem_append, not_or] at htarget
  obtain ⟨⟨⟨hs, -⟩, hs'⟩, ⟨⟨hc, -⟩, hc'⟩, ⟨⟨hn, -⟩, hn'⟩⟩ := htarget
  exact ⟨⟨hs, hc, hn⟩, ⟨hs', hc', hn'⟩⟩

namespace ScalarTable

variable {custom custom' : List String} {overrides : Overrides} {name target : String}

/-! ## Where targets come from -/

theorem mem_of_target? (h : (ofCustom custom overrides).target? name = some target) :
    target ∈ overrides.named.values ∨ target = anyType ∨ target ∈ builtin.map (·.2) := by
  rcases Table.mem_of_get?_insertAll h with hoverride | hbase
  · exact .inl (List.mem_map_of_mem (f := (·.2)) hoverride)
  · rw [Table.get?_foldl_insertNew, Option.or_eq_some_iff] at hbase
    rcases hbase with hbuiltin | ⟨-, hcustom⟩
    · have hmem := (Table.mem_of_get?_insertAll hbuiltin).resolve_right nofun
      exact .inr (.inr (List.mem_map_of_mem (f := (·.2)) hmem))
    · split at hcustom
      · exact .inr (.inl (Option.some.inj hcustom).symm)
      · cases hcustom

theorem plain_of_target?
    (hoverrides : ∀ target ∈ overrides.named.values, Text.isDottedIdentifier target = true)
    (h : (ofCustom custom overrides).target? name = some target) : Text.Plain target := by
  rcases mem_of_target? h with hoverride | rfl | hbuiltin
  · exact Text.plain_of_isDottedIdentifier (hoverrides target hoverride)
  · unfold Text.Plain
    decide
  · have hplain : ∀ target ∈ builtin.map (·.2), Text.Plain target := by
      unfold Text.Plain
      decide
    exact hplain target hbuiltin

theorem shortName_mem_taken {t : ScalarTable} (h : t.target? name = some target) :
    shortName target ∈ t.taken := by
  have hvalue : target ∈ t.targets.values :=
    List.mem_map_of_mem (f := (·.2)) (Table.mem_entries_of_get? h)
  exact List.mem_append_left _ (List.mem_map_of_mem (List.mem_append_left _ hvalue))

theorem anyType_mem_taken (t : ScalarTable) : anyType ∈ t.taken :=
  List.mem_append_right _ (List.mem_singleton_self _)

/-! ## Tables of the same scalars -/

/-- Two tables with the same targets for all names, to which the same names belong. -/
structure Agrees (t t' : ScalarTable) : Prop where
  target? : ∀ name, t.target? name = t'.target? name
  taken : ∀ name, name ∈ t.taken ↔ name ∈ t'.taken

theorem Agrees.contains {t t' : ScalarTable} (h : Agrees t t') (name : String) :
    t.contains name = t'.contains name :=
  congrArg Option.isSome (h.target? name)

theorem nodup_keys_ofCustom (custom : List String) (overrides : Overrides) :
    (ofCustom custom overrides).targets.keys.Nodup := by
  have hbuiltin : (Table.ofList (builtin.map fun e => (e.1, id e.2))).keys.Nodup :=
    Table.nodup_keys_insertAll (t := ∅) List.nodup_nil
  exact Table.nodup_keys_insertAll (Table.nodup_keys_foldl_insertNew hbuiltin custom)

theorem agrees_ofCustom (h : ∀ n, n ∈ custom ↔ n ∈ custom') :
    Agrees (ofCustom custom overrides) (ofCustom custom' overrides) := by
  have htarget : ∀ name, (ofCustom custom overrides).target? name =
      (ofCustom custom' overrides).target? name := by
    intro name
    refine Table.get?_insertAll_congr ?_
    rw [Table.get?_foldl_insertNew, Table.get?_foldl_insertNew]
    simp only [List.contains_eq_mem, h]
  refine ⟨htarget, fun name => ?_⟩
  have hvalues : ∀ target, target ∈ (ofCustom custom overrides).targets.values ↔
      target ∈ (ofCustom custom' overrides).targets.values := by
    intro target
    rw [Table.mem_values_iff (nodup_keys_ofCustom _ _),
      Table.mem_values_iff (nodup_keys_ofCustom _ _)]
    exact exists_congr fun name => Eq.congr_left (htarget name)
  have hunnamed : (ofCustom custom overrides).unnamed = (ofCustom custom' overrides).unnamed := rfl
  simp only [taken, List.mem_append, List.mem_map, hvalues, hunnamed]

end ScalarTable

end SchemaModels
