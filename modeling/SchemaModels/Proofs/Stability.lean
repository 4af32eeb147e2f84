import SchemaModels.Proofs.Arrangement
import SchemaModels.Proofs.Context
import SchemaModels.Proofs.Graph.Stability

/-! # The order of the blocks is stable

If all dependencies are declared then the nodes of the graph are the definitions that have blocks, and
their ranks follow the document. So a document in which no definition depends on a later one keeps its
order, and the order in which blocks come out is such an order. -/

namespace SchemaModels

/-- Every name on which a definition depends is the name of a definition. -/
def DependenciesDeclared (t : ScalarTable) (ds : List (Definition Empty)) : Prop :=
  ∀ d ∈ ds, ∀ n ∈ d.content.dependencies t, n ∈ ds.map (·.name)

/-- The names of the definitions that have blocks, in the order of the definitions. -/
def blockNames (t : ScalarTable) (ds : List (Definition Empty)) : List String :=
  (ds.map (·.name)).filter fun n => !t.taken.contains n

section

variable {t t' : ScalarTable} {ds ds' : List (Definition Empty)}

theorem mem_blockNames {n : String} : n ∈ blockNames t ds ↔ n ∈ ds.map (·.name) ∧ n ∉ t.taken := by
  rw [blockNames, List.mem_filter, Bool.not_eq_true', List.contains_eq_mem, decide_eq_false_iff_not]

theorem ScalarTable.Agrees.blockNames_eq (h : t.Agrees t') : blockNames t ds = blockNames t' ds := by
  refine List.filter_congr fun n _ => ?_
  simp only [List.contains_eq_mem, h.taken]

/-- A fact about any two definitions, said of the names of those that have blocks. -/
theorem pairwise_blockNames {R : String → String → Prop} (h : ds.Pairwise fun d e => R d.name e.name) :
    (blockNames t ds).Pairwise R :=
  (List.pairwise_map.mpr h).filter _

/-- If no definition depends on a later one then none has to stand after a later one. -/
theorem not_standsAfter_of_pairwise (hnames : (ds.map (·.name)).Nodup)
    (h : ds.Pairwise fun d e => e.name ∉ d.content.dependencies t) :
    ds.Pairwise fun d e => ¬StandsAfter t ds d.name e.name := by
  refine h.imp_of_mem fun {d e} hd _ hnot => ?_
  rintro ⟨⟨d', hd', hname, hdep⟩, -⟩
  obtain rfl := List.inj_on_of_nodup_map hnames hd' hd hname
  exact hnot hdep

theorem dependenciesDeclared_of_declared
    (hmembers : ∀ d ∈ ds, ∀ r ∈ d.content.members,
      r.innermost ∈ ds.map (·.name) ∨ t.contains r.innermost = true)
    (hinterfaces : ∀ d ∈ ds, ∀ i ∈ d.content.interfaces, i ∈ ds.map (·.name)) :
    DependenciesDeclared t ds := by
  intro d hd n hn
  rcases Content.mem_dependencies.mp hn with ⟨hmember, hscalar⟩ | hinterface
  · obtain ⟨r, hr, rfl⟩ := List.mem_map.mp hmember
    rcases hmembers d hd r hr with hname | hcontains
    · exact hname
    · exact absurd hcontains (Bool.eq_false_iff.mp hscalar)
  · exact hinterfaces d hd n hinterface

theorem SameDefinitions.dependenciesDeclared (h : SameDefinitions t t' ds ds')
    (hdeclared : DependenciesDeclared t ds) : DependenciesDeclared t' ds' := by
  intro d' hd' n hn
  obtain ⟨d, hd, hn⟩ : ∃ d ∈ ds, n ∈ d.content.dependencies t :=
    (h.exists_iff fun _ c => n ∈ c.dependencies t).mpr ⟨d', hd', h.dependencies_eq _ ▸ hn⟩
  exact (h.mem_names_iff n).mp (hdeclared d hd n hn)

end

/-! ## Sessions of declared dependencies -/

namespace Session.Covers

variable {s : Session} {o : Options} {t : ScalarTable} {ds : List (Definition Empty)}

theorem perm_blockNames (H : s.Covers o t ds) (hnames : (ds.map (·.name)).Nodup)
    (hdeclared : DependenciesDeclared t ds) : (blockNames t ds).Perm s.graph.nodes := by
  have hnodup : (blockNames t ds).Nodup := hnames.filter _
  rw [List.perm_ext_iff_of_nodup hnodup H.wf.nodup]
  intro n
  rw [mem_blockNames, H.nodes]
  refine and_congr_left fun _ => ⟨fun hn => ?_, ?_⟩
  · obtain ⟨d, hd, rfl⟩ := List.mem_map.mp hn
    exact ⟨d, hd, .inl rfl⟩
  · rintro ⟨d, hd, rfl | hn⟩
    · exact List.mem_map_of_mem hd
    · exact hdeclared d hd n hn

/-- If all dependencies are declared then every node has its block. -/
theorem order_of_emitted (H : s.Covers o t ds) (hdeclared : DependenciesDeclared t ds)
    {Ds : List Declaration} (h : s.emitted = .ok Ds) : s.graph.order = .ok (Ds.map (·.name)) := by
  obtain ⟨l, hl, rfl⟩ := exists_order_of_emitted h
  have hname : ∀ n ∈ l, (s.declarations.get? n).map (·.name) = some n := by
    intro n hn
    have hnode := (DependencyGraph.isOrdering_of_order H.wf hl).perm.mem_iff.mp hn
    obtain ⟨⟨d, hd, hd'⟩, -⟩ := H.nodes.mp hnode
    have hmem : n ∈ ds.map (·.name) := hd'.elim (· ▸ List.mem_map_of_mem hd) (hdeclared d hd n)
    obtain ⟨D, hD⟩ := Option.isSome_iff_exists.mp (H.contains.mpr hmem)
    exact Option.map_eq_some_iff.mpr ⟨D, hD, H.name_of_get? hD⟩
  rw [hl, List.map_filterMap, List.filterMap_congr hname, List.filterMap_some]

/-- No name in the order of the blocks has to stand after a later one. -/
theorem pairwise_emitted (H : s.Covers o t ds) (hdeclared : DependenciesDeclared t ds)
    {Ds : List Declaration} (h : s.emitted = .ok Ds) :
    (Ds.map (·.name)).Pairwise fun a b => ¬StandsAfter t ds a b := by
  have hordering := DependencyGraph.isOrdering_of_order H.wf (H.order_of_emitted hdeclared h)
  exact (hordering.pairwise H.wf).imp fun hnot => mt H.dependsOn.mpr hnot

/-- Definitions that stand in the order of their positions, none of them before one after which it has to
stand, keep their order. -/
theorem order_eq_blockNames (H : s.Covers o t ds) (hnames : (ds.map (·.name)).Nodup)
    (hdeclared : DependenciesDeclared t ds)
    (hplaced : ∀ d ∈ ds, s.graph.positions.get? d.name = some (d.position : Int))
    (hsorted : ds.Pairwise (·.position < ·.position)) (hacyclic : ¬HasCycle t ds)
    (hafter : (blockNames t ds).Pairwise fun a b => ¬StandsAfter t ds a b) :
    s.graph.order = .ok (blockNames t ds) := by
  have hrank : (blockNames t ds).Pairwise fun a b => (s.graph.rank a).key ≤ (s.graph.rank b).key := by
    refine pairwise_blockNames (hsorted.imp_of_mem fun {d e} hd he hlt => ?_)
    have hd : s.graph.rank d.name = ⟨0, d.position, d.name⟩ := by
      rw [DependencyGraph.rank, hplaced d hd]
    have he : s.graph.rank e.name = ⟨0, e.position, e.name⟩ := by
      rw [DependencyGraph.rank, hplaced e he]
    rw [hd, he]
    exact DependencyGraph.Rank.key_le_of_place (Int.ofNat_lt.mpr hlt)
  exact DependencyGraph.order_of_pairwise H.wf (mt H.cyclic_iff.mp hacyclic)
    (H.perm_blockNames hnames hdeclared) hrank (hafter.imp fun hnot => mt H.dependsOn.mp hnot)

end Session.Covers

namespace SameDefinitions

variable {s s' : Session} {o : Options} {t t' : ScalarTable} {ds ds' : List (Definition Empty)}

theorem get?_eq (h : SameDefinitions t t' ds ds') (H : s.Covers o t ds) (H' : s'.Covers o t' ds')
    (hnames' : (ds'.map (·.name)).Nodup) (n : String) :
    s'.declarations.get? n = s.declarations.get? n := by
  cases hget : s.declarations.get? n with
  | none =>
    rw [← Option.not_isSome_iff_eq_none] at hget ⊢
    exact mt (fun hn => H.contains.mpr ((h.mem_names_iff n).mpr (H'.contains.mp hn))) hget
  | some D =>
    obtain ⟨d, hd, -, hok⟩ := H.declared hget
    obtain ⟨d', hd', hok'⟩ := (h.exists_declare_iff fun w => w.result = .ok D).mp ⟨d, hd, hok⟩
    obtain ⟨D', hD', hget'⟩ := H'.get? hnames' hd'
    cases hok'.symm.trans hD'
    rwa [← (declares_of_ok hok').name, H.name_of_get? hget] at hget'

/-- Sessions of the same definitions make the same module if they have the same order. -/
theorem result_assemble_eq (h : SameDefinitions t t' ds ds') (H : s.Covers o t ds)
    (H' : s'.Covers o t' ds') (hnames' : (ds'.map (·.name)).Nodup)
    (horder : s'.graph.order = s.graph.order) (comment : String) :
    (Generator.assemble s' comment).result = (Generator.assemble s comment).result := by
  have hreferences : s'.checkReferences = s.checkReferences := by
    rw [Session.checkReferences_eq, Session.checkReferences_eq, H.unresolved_eq, H'.unresolved_eq,
      h.unresolvedNames_eq, H.options, H'.options]
  have hbody : s'.body = s.body := by
    simp only [Session.body, Session.blocks, Session.order, horder, h.get?_eq H H' hnames']
  rw [Generator.result_assemble, Generator.result_assemble, hreferences, hbody, h.header_eq H H',
    H.options, H'.options]

end SameDefinitions

/-! ## Documents in another order -/

/-- Some elements of a list can be brought into any order, and the others keep theirs. -/
theorem exists_perm_of_filterMap {α β : Type} {f : α → Option β} {l : List α} {bs : List β}
    (h : (l.filterMap f).Perm bs) :
    ∃ l', l.Perm l' ∧ l'.filterMap f = bs ∧
      l'.filter (fun a => (f a).isNone) = l.filter fun a => (f a).isNone := by
  generalize hl : l.filterMap f = as at h
  induction h generalizing l with
  | nil => exact ⟨l, .refl l, hl, rfl⟩
  | cons b _ ih =>
    obtain ⟨skipped, a, rest, rfl, hskipped, ha, hrest⟩ := List.filterMap_eq_cons_iff.mp hl
    obtain ⟨rest', hperm, hrest', hothers⟩ := ih hrest
    refine ⟨skipped ++ a :: rest', (hperm.cons a).append_left skipped, ?_, ?_⟩
    · rw [List.filterMap_append, List.filterMap_eq_nil_iff.mpr hskipped, List.filterMap_cons_some ha,
        hrest', List.nil_append]
    · simp only [List.filter_append, List.filter_cons, ha, hothers]
  | swap b b' bs =>
    obtain ⟨skipped, a', rest, rfl, hskipped, ha', hrest⟩ := List.filterMap_eq_cons_iff.mp hl
    obtain ⟨skipped', a, rest', rfl, hskipped', ha, hrest'⟩ := List.filterMap_eq_cons_iff.mp hrest
    refine ⟨skipped ++ (skipped' ++ a :: a' :: rest'), ?_, ?_, ?_⟩
    · refine List.Perm.append_left skipped ?_
      exact List.perm_middle.symm.trans ((List.Perm.swap a a' rest').append_left skipped')
    · rw [List.filterMap_append, List.filterMap_append, List.filterMap_eq_nil_iff.mpr hskipped,
        List.filterMap_eq_nil_iff.mpr hskipped', List.filterMap_cons_some ha,
        List.filterMap_cons_some ha', hrest', List.nil_append, List.nil_append]
    · simp only [List.filter_append, List.filter_cons, ha, ha']
      rfl
  | trans _ _ ih ih' =>
    obtain ⟨l', hperm, hl', hothers⟩ := ih hl
    obtain ⟨l'', hperm', hl'', hothers'⟩ := ih' hl'
    exact ⟨l'', hperm.trans hperm', hl'', hothers'.trans hothers⟩

namespace Document

variable {doc : Document} {t : ScalarTable}

/-- The name of a node that is a definition with a block. -/
def blockName? (t : ScalarTable) : Node → Option String
  | .definition name _ => if t.taken.contains name then none else some name
  | _ => none

theorem blockNames_definitions (doc : Document) (t : ScalarTable) :
    blockNames t doc.definitions = doc.nodes.filterMap (blockName? t) := by
  rw [blockNames, names_definitions, List.map_filterMap, ← List.filterMap_eq_filter,
    List.filterMap_filterMap]
  refine List.filterMap_congr fun node _ => ?_
  cases node with
  | definition name content => by_cases h : name ∈ t.taken <;> simp [definition?, blockName?, h]
  | _ => rfl

/-- Nodes that are no definitions with blocks decide the extensions. -/
theorem extensionsOf_filter (t : ScalarTable) (name : String) (kind : Kind) (nodes : List Node) :
    extensionsOf name kind (nodes.filter fun node => (blockName? t node).isNone) =
      extensionsOf name kind nodes := by
  rw [extensionsOf, List.filterMap_filter]
  refine List.filterMap_congr fun node _ => ?_
  cases node with
  | definition name content => exact ite_self none
  | _ => rfl

/-- The definitions that have blocks can be brought into any order. -/
theorem exists_rearranged {names : List String} (h : (blockNames t doc.definitions).Perm names) :
    ∃ doc', doc.Rearranged doc' ∧ blockNames t doc'.definitions = names := by
  rw [blockNames_definitions] at h
  obtain ⟨nodes', hperm, hnames, hothers⟩ := exists_perm_of_filterMap h
  refine ⟨⟨nodes'⟩, ⟨hperm, fun name kind => ?_⟩, by rwa [blockNames_definitions]⟩
  rw [← extensionsOf_filter t, ← hothers, extensionsOf_filter]

end Document

namespace Generator

open Session

variable {o : Options} {overrides : Overrides} {doc doc' : Document} {comment : String}
  {m : GeneratedModule} {s : Session}

/-- The graph of a document has the positions of its definitions. -/
theorem position_of_declareSchema (hnames : (doc.definitions.map (·.name)).Nodup)
    (hs : (declareSchema o (Schema.ofDocument doc).1).result = .ok s) {d : Definition Empty}
    (hd : d ∈ doc.definitions) : s.graph.positions.get? d.name = some (d.position : Int) := by
  rw [positions_of_declareSchema hs, Schema.positions, Schema.definitions_ofDocument]
  refine Table.get?_insertAll_of_mem ?_ (List.mem_map_of_mem (f := fun d => (d.name, _)) hd)
  rwa [List.map_map]

theorem order_of_declareSchema (hoverrides : o.overrides = .ok overrides)
    (hnames : (doc.definitions.map (·.name)).Nodup)
    (hdeclared : DependenciesDeclared (doc.scalarTable overrides) doc.definitions)
    (hs : (declareSchema o (Schema.ofDocument doc).1).result = .ok s)
    (hacyclic : ¬HasCycle (doc.scalarTable overrides) doc.definitions)
    (hafter : (blockNames (doc.scalarTable overrides) doc.definitions).Pairwise
      fun a b => ¬StandsAfter (doc.scalarTable overrides) doc.definitions a b) :
    s.graph.order = .ok (blockNames (doc.scalarTable overrides) doc.definitions) :=
  (covers_of_declareSchema hoverrides hs).order_eq_blockNames hnames hdeclared
    (fun _ => position_of_declareSchema hnames hs) doc.pairwise_position hacyclic hafter

/-- A rearranged document can be declared if the document can. -/
theorem exists_session_of_rearranged (hoverrides : o.overrides = .ok overrides)
    (h : doc.Rearranged doc') (hnames : (doc.definitions.map (·.name)).Nodup)
    (H : s.Covers o (doc.scalarTable overrides) doc.definitions) :
    ∃ s', (declareSchema o (Schema.ofDocument doc').1).result = .ok s' := by
  have hsame := h.sameDefinitions hnames overrides
  have hdeclares : ∀ d' ∈ doc'.definitions,
      ∃ D, (o.declare (doc'.scalarTable overrides) d'.widen).result = .ok D := by
    intro d' hd'
    by_contra hnone
    obtain ⟨d, hd, hnone⟩ :=
      (hsame.exists_declare_iff fun w => ¬∃ D, w.result = .ok D).mpr ⟨d', hd', hnone⟩
    exact hnone (H.declares d hd)
  rw [declareSchema_of_ok hoverrides, Schema.definitions_ofDocument]
  obtain ⟨s', hs', -⟩ := exists_grows_declareAll
    (s := initial o (doc'.scalarTable overrides) (Schema.ofDocument doc').1.positions) hdeclares
  exact ⟨s', hs'⟩

/-- If every union member is declared or a scalar and every interface is declared, then the order of the
blocks is stable. Where no definition depends on a later one, the blocks stand in the order of the
document; and a document whose definitions are brought into the order in which their blocks came out
leads to the same module. -/
theorem emission_order_stable (hoverrides : o.overrides = .ok overrides)
    (hnames : (doc.definitions.map (·.name)).Nodup)
    (hmembers : ∀ d ∈ doc.definitions, ∀ r ∈ d.content.members,
      r.innermost ∈ doc.definitions.map (·.name) ∨
        (doc.scalarTable overrides).contains r.innermost = true)
    (hinterfaces : ∀ d ∈ doc.definitions, ∀ i ∈ d.content.interfaces,
      i ∈ doc.definitions.map (·.name))
    (h : (ofDocument o doc comment).result = .ok m) :
    let t := doc.scalarTable overrides
    ∃ Ds : List Declaration, emitted o doc = .ok Ds ∧
      m.body = "\n\n".intercalate (Ds.map (·.block.text)) ∧
      ((doc.definitions.Pairwise fun d e => e.name ∉ d.content.dependencies t) →
        Ds.map (·.name) = blockNames t doc.definitions) ∧
      (∃ doc', doc.Rearranged doc' ∧ blockNames t doc'.definitions = Ds.map (·.name)) ∧
      ∀ doc', doc.Rearranged doc' → blockNames t doc'.definitions = Ds.map (·.name) →
        (ofDocument o doc' comment).result = .ok m := by
  intro t
  have hdeclared : DependenciesDeclared t doc.definitions :=
    dependenciesDeclared_of_declared hmembers hinterfaces
  obtain ⟨s, Ds, hs, -, hDs, -, hbody⟩ := exists_declared_of_ok h
  have H := covers_of_declareSchema hoverrides hs
  have horder := H.order_of_emitted hdeclared hDs
  have hacyclic : ¬HasCycle t doc.definitions :=
    mt H.cyclic_iff.mpr ((DependencyGraph.order_eq_ok_iff H.wf).mp ⟨_, horder⟩)
  have hemitted : emitted o doc = .ok Ds := by
    rw [emitted, hs]
    exact hDs
  refine ⟨Ds, hemitted, hbody, fun hlater => ?_, ?_, fun doc' hdoc' hblocks => ?_⟩
  · have hdocument := order_of_declareSchema hoverrides hnames hdeclared hs hacyclic
      (pairwise_blockNames (not_standsAfter_of_pairwise hnames hlater))
    exact Except.ok.inj (horder.symm.trans hdocument)
  · refine Document.exists_rearranged ((H.perm_blockNames hnames hdeclared).trans ?_)
    exact (DependencyGraph.isOrdering_of_order H.wf horder).perm.symm
  · have hsame := hdoc'.sameDefinitions hnames overrides
    have hnames' := hdoc'.perm_names.nodup_iff.mp hnames
    obtain ⟨s', hs'⟩ := exists_session_of_rearranged hoverrides hdoc' hnames H
    rw [hsame.tables.blockNames_eq] at hblocks
    -- the order of the first run is one in which no name has to stand after a later one
    have hafter := H.pairwise_emitted hdeclared hDs
    rw [← hblocks, hsame.standsAfter_eq] at hafter
    have horder' := order_of_declareSchema hoverrides hnames' (hsame.dependenciesDeclared hdeclared)
      hs' (mt hsame.hasCycle_iff.mpr hacyclic) hafter
    rw [hblocks, ← horder] at horder'
    rw [result_of_session hs', ← h, result_of_session hs]
    exact hsame.result_assemble_eq H (covers_of_declareSchema hoverrides hs') hnames' horder' comment

/-- Four types, one of them with a scalar among its members: in an order that stays as it is, and in one
from which another document comes out. -/
theorem emission_order_stable_pets :
    let dog := Document.Node.definition "Dog" (.object [⟨"age", .named "Int"⟩] [])
    let animal := Document.Node.definition "Animal" (.interface [])
    let cat := Document.Node.definition "Cat" (.object [] ["Animal"])
    let pet := Document.Node.definition "Pet" (.union [.named "Cat", .named "Tag"])
    let sorted : Document := ⟨[dog, animal, cat, pet, .scalar "Tag"]⟩
    let mixed : Document := ⟨[pet, .scalar "Tag", dog, cat, animal]⟩
    (∃ m Ds, (ofDocument {} sorted "").result = .ok m ∧ emitted {} sorted = .ok Ds ∧
        Ds.map (·.name) = ["Dog", "Animal", "Cat", "Pet"]) ∧
      ∃ m doc', (ofDocument {} mixed "").result = .ok m ∧ mixed.Rearranged doc' ∧
        (ofDocument {} doc' "").result = .ok m := by
  intro dog animal cat pet sorted mixed
  have ho : Options.Usable {} {} ["copy"] := ⟨rfl, rfl⟩
  have hok : ∀ doc : Document, ¬HasCycle (doc.scalarTable {}) doc.definitions →
      doc.offences ["copy"] = [] → ∃ m, (ofDocument {} doc "").result = .ok m := by
    intro doc hacyclic hoffences
    exact (result_of_resolved ho hoffences "" fun h => Bool.false_ne_true h.1).2 hacyclic
  let rank (n : String) : Nat := if n = "Pet" then 2 else if n = "Cat" then 1 else 0
  obtain ⟨m, hm⟩ := hok sorted (not_hasCycle_of_rank rank (by decide +kernel)) (by decide +kernel)
  obtain ⟨m', hm'⟩ := hok mixed (not_hasCycle_of_rank rank (by decide +kernel)) (by decide +kernel)
  obtain ⟨Ds, hDs, -, hsorted, -⟩ := emission_order_stable ho.overrides (by decide +kernel)
    (by decide +kernel) (by decide +kernel) hm
  obtain ⟨Ds', -, -, -, ⟨doc', hdoc', hblocks⟩, hstable⟩ := emission_order_stable ho.overrides
    (by decide +kernel) (by decide +kernel) (by decide +kernel) hm'
  refine ⟨⟨m, Ds, hm, hDs, ?_⟩, m', doc', hm', hdoc', hstable doc' hdoc' hblocks⟩
  rw [hsorted (by decide +kernel)]
  decide +kernel

end Generator

end SchemaModels
