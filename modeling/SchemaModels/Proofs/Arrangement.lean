import SchemaModels.Proofs.Emission
import SchemaModels.Proofs.Positions
import SchemaModels.Proofs.ScalarTable

/-! # The order of a document

What a module imports, which blocks it has and why there is none are decided by the set of definitions,
not by their order (`SameDefinitions`). Only the arrangement of the blocks, and which of several names or
cycles is reported, follows the document. -/

namespace SchemaModels

/-- The same definitions, in any order and at any positions, with tables of the same scalars. -/
structure SameDefinitions (t t' : ScalarTable) (ds ds' : List (Definition Empty)) : Prop where
  tables : t.Agrees t'
  mem_iff : ∀ p, p ∈ ds.map Definition.unplaced ↔ p ∈ ds'.map Definition.unplaced

namespace SameDefinitions

variable {o : Options} {t t' : ScalarTable} {ds ds' : List (Definition Empty)}

/-- A fact about some definition, said without its position. -/
theorem exists_iff (h : SameDefinitions t t' ds ds') (P : String → Content Empty → Prop) :
    (∃ d ∈ ds, P d.name d.content) ↔ ∃ d ∈ ds', P d.name d.content := by
  have hmap : ∀ ds : List (Definition Empty),
      (∃ d ∈ ds, P d.name d.content) ↔ ∃ p ∈ ds.map Definition.unplaced, P p.1 p.2 := by
    intro ds
    simp only [List.mem_map, exists_exists_and_eq_and]
    rfl
  simp only [hmap, h.mem_iff]

theorem mem_names_iff (h : SameDefinitions t t' ds ds') (n : String) :
    n ∈ ds.map (·.name) ↔ n ∈ ds'.map (·.name) := by
  rw [List.mem_map, List.mem_map]
  exact h.exists_iff fun name _ => name = n

/-! ## What decides between failure and success -/

theorem dependencies_eq (h : SameDefinitions t t' ds ds') (c : Content Empty) :
    c.dependencies t = c.dependencies t' := by
  rw [Content.dependencies, Content.dependencies]
  simp only [h.tables.contains]

theorem unresolved_iff (h : SameDefinitions t t' ds ds') (n : String) :
    Unresolved t ds n ↔ Unresolved t' ds' n := by
  have hnames := h.mem_names_iff n
  have hmentioned := h.exists_iff fun _ c => n ∈ c.typeNames ∨ n ∈ c.interfaces
  constructor
  · rintro ⟨hm, hs, hd⟩
    exact ⟨hmentioned.mp hm, h.tables.contains n ▸ hs, mt hnames.mpr hd⟩
  · rintro ⟨hm, hs, hd⟩
    exact ⟨hmentioned.mpr hm, (h.tables.contains n).symm ▸ hs, mt hnames.mp hd⟩

theorem unresolvedNames_eq (h : SameDefinitions t t' ds ds') :
    unresolvedNames t ds = unresolvedNames t' ds' := by
  have hsorted := pairwise_unresolvedNames t ds
  have hsorted' := pairwise_unresolvedNames t' ds'
  have hperm : (unresolvedNames t ds).Perm (unresolvedNames t' ds') := by
    rw [List.perm_ext_iff_of_nodup hsorted.nodup hsorted'.nodup]
    intro n
    rw [mem_unresolvedNames, mem_unresolvedNames, h.unresolved_iff]
  exact hperm.eq_of_pairwise' (hsorted.imp le_of_lt) (hsorted'.imp le_of_lt)

theorem standsAfter_eq (h : SameDefinitions t t' ds ds') : StandsAfter t ds = StandsAfter t' ds' := by
  funext a b
  rw [StandsAfter, StandsAfter, h.tables.taken, h.tables.taken,
    h.exists_iff fun name c => name = a ∧ b ∈ c.dependencies t]
  simp only [h.dependencies_eq]

theorem hasCycle_iff (h : SameDefinitions t t' ds ds') : HasCycle t ds ↔ HasCycle t' ds' := by
  rw [HasCycle, HasCycle, h.standsAfter_eq]

/-! ## What makes up a module -/

theorem declare_eq (h : SameDefinitions t t' ds ds') (d : Definition Empty) :
    o.declare t d.widen = o.declare t' d.widen :=
  declare_congr h.tables.target? d.widen

theorem exists_declare_iff (h : SameDefinitions t t' ds ds') (P : Written Declaration → Prop) :
    (∃ d ∈ ds, P (o.declare t d.widen)) ↔ ∃ d ∈ ds', P (o.declare t' d.widen) := by
  simp only [h.declare_eq]
  exact h.exists_iff fun name content => P (o.declare t' (Definition.widen ⟨name, 0, content⟩))

variable {s s' : Session}

theorem header_eq (h : SameDefinitions t t' ds ds') (H : s.Covers o t ds) (H' : s'.Covers o t' ds') :
    s.header = s'.header := by
  have husage : ∀ {P : Usage → Prop}, Usage.Additive P → (P s.usage ↔ P s'.usage) := by
    intro P hP
    rw [H.usage hP, H'.usage hP]
    exact h.exists_declare_iff fun w => P w.usage
  refine Imports.header_congr (fun f => husage (Usage.additive_features f)) ?_
  have hnodup := H.stable Usage.stable_nodup_names
  have hnodup' := H'.stable Usage.stable_nodup_names
  rw [List.perm_ext_iff_of_nodup hnodup hnodup']
  exact fun n => husage (Usage.additive_names n)

theorem perm_emitted (h : SameDefinitions t t' ds ds') (H : s.Covers o t ds) (H' : s'.Covers o t' ds')
    (hnames : (ds.map (·.name)).Nodup) (hnames' : (ds'.map (·.name)).Nodup)
    {Ds Ds' : List Declaration} (hDs : s.emitted = .ok Ds) (hDs' : s'.emitted = .ok Ds') :
    Ds.Perm Ds' := by
  have hnodup := (H.dependencyOrdered hDs).nodup.of_map
  have hnodup' := (H'.dependencyOrdered hDs').nodup.of_map
  rw [List.perm_ext_iff_of_nodup hnodup hnodup']
  intro D
  rw [H.mem_emitted_of_nodup hnames hDs, H'.mem_emitted_of_nodup hnames' hDs', h.tables.taken,
    h.exists_declare_iff fun w => w.result = .ok D]

end SameDefinitions

/-! ## Rearranged documents -/

/-- The same nodes in another order, which keeps the order of the extensions of each type. -/
structure Document.Rearranged (doc doc' : Document) : Prop where
  nodes : doc.nodes.Perm doc'.nodes
  extensions : ∀ name kind, extensionsOf name kind doc.nodes = extensionsOf name kind doc'.nodes

namespace Document.Rearranged

variable {doc doc' : Document}

theorem perm_names (h : Rearranged doc doc') :
    (doc.definitions.map (·.name)).Perm (doc'.definitions.map (·.name)) := by
  rw [names_definitions, names_definitions]
  exact (h.nodes.filterMap _).map _

theorem sameDefinitions (h : Rearranged doc doc') (hnames : (doc.definitions.map (·.name)).Nodup)
    (overrides : Overrides) :
    SameDefinitions (doc.scalarTable overrides) (doc'.scalarTable overrides) doc.definitions
      doc'.definitions where
  tables := ScalarTable.agrees_ofCustom fun _ => (h.nodes.filterMap _).mem_iff
  mem_iff p := by
    have hnames' := h.perm_names.nodup_iff.mp hnames
    have hcompleted : completed doc.nodes = completed doc'.nodes := by
      funext d
      rw [completed, completed, h.extensions]
    rw [unplaced_definitions hnames, unplaced_definitions hnames', hcompleted]
    exact ((h.nodes.filterMap _).map _).mem_iff

theorem offences_eq_nil_iff (h : Rearranged doc doc') (hnames : (doc.definitions.map (·.name)).Nodup)
    (reserved : List String) : doc.offences reserved = [] ↔ doc'.offences reserved = [] := by
  have hnil : ∀ doc : Document, doc.offences reserved = [] ↔
      ¬∃ d ∈ doc.definitions, d.content.offences reserved ≠ [] := by
    intro doc
    rw [offences, List.flatMap_eq_nil_iff]
    simp only [List.map_eq_nil_iff, not_exists, not_and, not_not]
  rw [hnil, hnil, (h.sameDefinitions hnames {}).exists_iff fun _ c => c.offences reserved ≠ []]

end Document.Rearranged

namespace Generator

open Session

variable {doc doc' : Document} {o : Options} {comment : String} {m m' : GeneratedModule}

/-- Two modules with the same header whose bodies are made of the same blocks. -/
def SameBlocks (o : Options) (doc doc' : Document) (m m' : GeneratedModule) : Prop :=
  m.header = m'.header ∧
    ∃ Ds Ds', emitted o doc = .ok Ds ∧ emitted o doc' = .ok Ds' ∧
      m.body = "\n\n".intercalate (Ds.map (·.block.text)) ∧
      m'.body = "\n\n".intercalate (Ds'.map (·.block.text)) ∧
      (Ds.map (·.block)).Perm (Ds'.map (·.block))

theorem sameBlocks_of_rearranged {overrides : Overrides} (hoverrides : o.overrides = .ok overrides)
    (h : doc.Rearranged doc') (hnames : (doc.definitions.map (·.name)).Nodup)
    (hm : (ofDocument o doc comment).result = .ok m)
    (hm' : (ofDocument o doc' comment).result = .ok m') : SameBlocks o doc doc' m m' := by
  obtain ⟨s, Ds, H, hDs, hemitted, hheader, hbody⟩ := exists_emitted_of_ok hoverrides hm
  obtain ⟨s', Ds', H', hDs', hemitted', hheader', hbody'⟩ := exists_emitted_of_ok hoverrides hm'
  have hsame := h.sameDefinitions hnames overrides
  have hnames' := h.perm_names.nodup_iff.mp hnames
  refine ⟨?_, Ds, Ds', hemitted, hemitted', hbody, hbody', ?_⟩
  · rw [hheader, hheader', hsame.header_eq H H']
  · exact (hsame.perm_emitted H H' hnames hnames' hDs hDs').map _

/-- The order of a document affects only how the blocks of the module are arranged. If there is no
module then it is for the same reason, and for the same names if these are unresolved. -/
theorem result_of_rearranged (c : Settings) (hc : c.WellTyped) (h : doc.Rearranged doc')
    (hnames : (doc.definitions.map (·.name)).Nodup) (comment : String) :
    let result := (ofDocument c.options doc comment).result
    let result' := (ofDocument c.options doc' comment).result
    (∃ m m', result = .ok m ∧ result' = .ok m' ∧ SameBlocks c.options doc doc' m m') ∨
      (∃ owner name owner' name', result = .error (.invalidIdentifier owner name) ∧
        result' = .error (.invalidIdentifier owner' name')) ∨
      (∃ names, result = .error (.unresolved names) ∧ result' = .error (.unresolved names)) ∨
      ∃ path path', result = .error (.cycle path) ∧ result' = .error (.cycle path') := by
  intro result result'
  obtain ⟨overrides, reserved, ho⟩ := hc.exists_usable
  have hsame := h.sameDefinitions hnames overrides
  have hiff := h.offences_eq_nil_iff hnames reserved
  cases hoffences : doc.offences reserved with
  | cons p rest =>
    cases hoffences' : doc'.offences reserved with
    | nil => cases hoffences.symm.trans (hiff.mpr hoffences')
    | cons p' rest' =>
      exact .inr (.inl ⟨p.1, p.2, p'.1, p'.2, result_of_offence ho hoffences comment,
        result_of_offence ho hoffences' comment⟩)
  | nil =>
    have hoffences' := hiff.mp hoffences
    have hunresolved := hsame.unresolvedNames_eq
    by_cases hrefused : c.options.strict = true ∧
        unresolvedNames (doc.scalarTable overrides) doc.definitions ≠ []
    · obtain ⟨hstrict, hne⟩ := hrefused
      have hfails := result_of_unresolved ho hoffences comment hstrict hne
      have hfails' := result_of_unresolved ho hoffences' comment hstrict (hunresolved ▸ hne)
      exact .inr (.inr (.inl ⟨_, hfails, hunresolved ▸ hfails'⟩))
    · obtain ⟨hcyclic, hacyclic⟩ := result_of_resolved ho hoffences comment hrefused
      obtain ⟨hcyclic', hacyclic'⟩ :=
        result_of_resolved ho hoffences' comment (hunresolved ▸ hrefused)
      by_cases hcycle : HasCycle (doc.scalarTable overrides) doc.definitions
      · obtain ⟨path, hpath⟩ := hcyclic hcycle
        obtain ⟨path', hpath'⟩ := hcyclic' (hsame.hasCycle_iff.mp hcycle)
        exact .inr (.inr (.inr ⟨path, path', hpath, hpath'⟩))
      · obtain ⟨m, hm⟩ := hacyclic hcycle
        obtain ⟨m', hm'⟩ := hacyclic' (mt hsame.hasCycle_iff.mpr hcycle)
        exact .inl ⟨m, m', hm, hm', sameBlocks_of_rearranged ho.overrides h hnames hm hm'⟩

/-- A type, a union that holds it, a scalar and two extensions, in two orders. -/
theorem result_of_rearranged_pets :
    let cat := Document.Node.definition "Cat" (.object [⟨"name", .named "Tag"⟩] [])
    let age := Document.Node.extension "Cat" (.object [⟨"age", .named "Int"⟩] [])
    let tail := Document.Node.extension "Cat" (.object [⟨"tail", .named "Float"⟩] [])
    let pet := Document.Node.definition "Pet" (.union [.named "Cat"])
    let doc : Document := ⟨[pet, age, cat, tail, .scalar "Tag"]⟩
    let doc' : Document := ⟨[.scalar "Tag", cat, age, pet, tail]⟩
    let c : Settings := { strictReferences := .bool true }
    c.WellTyped ∧ doc.Rearranged doc' ∧ (doc.definitions.map (·.name)).Nodup ∧
      ∃ m m', (ofDocument c.options doc "").result = .ok m ∧
        (ofDocument c.options doc' "").result = .ok m' ∧ SameBlocks c.options doc doc' m m' := by
  intro cat age tail pet doc doc' c
  have hc : c.WellTyped := ⟨⟨[], rfl, nofun⟩, ⟨_, rfl⟩⟩
  have hrearranged : doc.Rearranged doc' := ⟨by decide +kernel, fun _ _ => rfl⟩
  have hnames : (doc.definitions.map (·.name)).Nodup := by decide +kernel
  have ho : c.options.Usable {} ["copy"] := ⟨rfl, rfl⟩
  have hrank : ¬HasCycle (doc.scalarTable {}) doc.definitions :=
    not_hasCycle_of_rank (fun n => if n = "Pet" then 1 else 0) (by decide +kernel)
  have hresolved : unresolvedNames (doc.scalarTable {}) doc.definitions = [] := by decide +kernel
  obtain ⟨m, hm⟩ := (result_of_resolved ho (by decide +kernel) "" fun h => h.2 hresolved).2 hrank
  refine ⟨hc, hrearranged, hnames, ?_⟩
  rcases result_of_rearranged c hc hrearranged hnames "" with hok | ⟨_, _, _, _, herror, -⟩ |
    ⟨_, herror, -⟩ | ⟨_, _, herror, -⟩
  · exact hok
  · cases hm.symm.trans herror
  · cases hm.symm.trans herror
  · cases hm.symm.trans herror

end Generator

end SchemaModels
