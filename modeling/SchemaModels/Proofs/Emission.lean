import SchemaModels.Proofs.Outcome

/-! # The blocks of a module

The body of a module is made of the blocks of declarations, in dependency order. Which declarations
these are depends on the graph: names that belong to scalar types are no nodes of it, so a definition
with such a name has no block. -/

namespace SchemaModels

/-! ## Orders of declarations -/

/-- Declarations of different names, each after those of them on which it depends. -/
structure DependencyOrdered (ds : List Declaration) : Prop where
  nodup : (ds.map (·.name)).Nodup
  dependencies_before : ∀ {before D after}, ds = before ++ D :: after →
    ∀ E ∈ ds, E.name ∈ D.dependsOn → E ∈ before

/-- Declarations that depend on no others. -/
def DependencyClosed (ds : List Declaration) : Prop :=
  ∀ D ∈ ds, ∀ n ∈ D.dependsOn, ∃ E ∈ ds, E.name = n

namespace Session

variable {s : Session} {o : Options} {t : ScalarTable} {definitions : List (Definition Empty)}
  {ds : List Declaration}

/-- The declarations in dependency order, without the nodes that nothing declares. -/
def emitted (s : Session) : Except Failure (List Declaration) :=
  s.order.map (·.filterMap s.declarations.get?)

theorem blocks_eq : s.blocks = s.emitted.map (·.map (·.block)) := by
  rw [blocks, emitted]
  cases s.order with
  | error e => rfl
  | ok l => exact congrArg Except.ok List.map_filterMap.symm

theorem body_eq : s.body = s.emitted.map fun ds => "\n\n".intercalate (ds.map (·.block.text)) := by
  rw [body, blocks_eq]
  cases s.emitted with
  | error e => rfl
  | ok ds => exact congrArg (fun texts => Except.ok ("\n\n".intercalate texts)) List.map_map

theorem exists_emitted_of_body {b : String} (h : s.body = .ok b) :
    ∃ ds, s.emitted = .ok ds ∧ b = "\n\n".intercalate (ds.map (·.block.text)) := by
  rw [body_eq] at h
  obtain ⟨ds, hds, rfl⟩ := map_eq_ok_iff.mp h
  exact ⟨ds, hds, rfl⟩

theorem exists_order_of_emitted (h : s.emitted = .ok ds) :
    ∃ l, s.graph.order = .ok l ∧ ds = l.filterMap s.declarations.get? := by
  rw [emitted, order] at h
  cases hl : s.graph.order with
  | error cycle =>
    rw [hl] at h
    cases h
  | ok l =>
    rw [hl] at h
    cases h
    exact ⟨l, rfl, rfl⟩

namespace Covers

theorem name_of_get? (H : s.Covers o t definitions) {n : String} {D : Declaration}
    (h : s.declarations.get? n = some D) : D.name = n := by
  obtain ⟨d, -, rfl, hok⟩ := H.declared h
  exact (declares_of_ok hok).name

/-- The emitted declarations come from an ordering of the graph. -/
theorem exists_isOrdering (H : s.Covers o t definitions) (h : s.emitted = .ok ds) :
    ∃ l, s.graph.IsOrdering l ∧ ds = l.filterMap s.declarations.get? := by
  obtain ⟨l, hl, rfl⟩ := exists_order_of_emitted h
  exact ⟨l, DependencyGraph.isOrdering_of_order H.wf hl, rfl⟩

/-- A declaration is emitted exactly if it is the one of its name, and its name is not taken. -/
theorem mem_emitted (H : s.Covers o t definitions) (h : s.emitted = .ok ds) {D : Declaration} :
    D ∈ ds ↔ s.declarations.get? D.name = some D ∧ D.name ∉ t.taken := by
  obtain ⟨l, hl, rfl⟩ := H.exists_isOrdering h
  rw [List.mem_filterMap]
  constructor
  · rintro ⟨n, hn, hD⟩
    obtain rfl := H.name_of_get? hD
    have hnode := H.nodes.mp (hl.perm.mem_iff.mp hn)
    exact ⟨hD, hnode.2⟩
  · rintro ⟨hD, htaken⟩
    obtain ⟨d, hd, hname, -⟩ := H.declared hD
    have hnode : D.name ∈ s.graph.nodes := H.nodes.mpr ⟨⟨d, hd, .inl hname.symm⟩, htaken⟩
    exact ⟨D.name, hl.perm.mem_iff.mpr hnode, hD⟩

theorem mem_emitted_of_nodup (H : s.Covers o t definitions)
    (hnames : (definitions.map (·.name)).Nodup) (h : s.emitted = .ok ds) {D : Declaration} :
    D ∈ ds ↔ (∃ d ∈ definitions, (o.declare t d.widen).result = .ok D) ∧ D.name ∉ t.taken := by
  rw [H.mem_emitted h]
  refine and_congr_left fun _ => ⟨fun hget => ?_, ?_⟩
  · obtain ⟨d, hd, -, hok⟩ := H.declared hget
    exact ⟨d, hd, hok⟩
  · rintro ⟨d, hd, hok⟩
    obtain ⟨E, hE, hget⟩ := H.get? hnames hd
    cases hok.symm.trans hE
    rwa [(declares_of_ok hok).name]

theorem block_name_of_mem (H : s.Covers o t definitions) (h : s.emitted = .ok ds) {D : Declaration}
    (hD : D ∈ ds) : D.block.name = D.name := by
  obtain ⟨d, -, -, hok⟩ := H.declared ((H.mem_emitted h).mp hD).1
  have hdeclares := declares_of_ok hok
  rw [hdeclares.block, hdeclares.name]

/-- Of two emitted declarations, one depends on the other in the graph if it does by itself. -/
theorem dependsOn_of_mem (H : s.Covers o t definitions) (h : s.emitted = .ok ds)
    {D E : Declaration} (hD : D ∈ ds) (hE : E ∈ ds) (hdep : E.name ∈ D.dependsOn) :
    s.graph.DependsOn D.name E.name := by
  obtain ⟨hget, htaken⟩ := (H.mem_emitted h).mp hD
  obtain ⟨d, hd, hname, hok⟩ := H.declared hget
  rw [(declares_of_ok hok).dependsOn] at hdep
  exact H.dependsOn.mpr ⟨⟨d, hd, hname, hdep⟩, htaken, ((H.mem_emitted h).mp hE).2⟩

theorem dependencyOrdered (H : s.Covers o t definitions) (h : s.emitted = .ok ds) :
    DependencyOrdered ds := by
  have hdepends := @H.dependsOn_of_mem _ _ _ _ _ h
  have hmem := @H.mem_emitted _ _ _ _ _ h
  obtain ⟨l, hl, rfl⟩ := H.exists_isOrdering h
  have hname : ∀ n b, b ∈ (s.declarations.get? n).map (·.name) → b = n := by
    intro n b hb
    obtain ⟨D, hD, rfl⟩ := Option.map_eq_some_iff.mp hb
    exact H.name_of_get? hD
  refine ⟨?_, ?_⟩
  · rw [List.map_filterMap]
    refine (hl.perm.nodup_iff.mpr H.wf.nodup).filterMap fun n n' b hn hn' => ?_
    exact (hname n b hn).symm.trans (hname n' b hn')
  · intro before D after hds E hE hdep
    have hD : D ∈ l.filterMap s.declarations.get? := hds ▸ List.mem_append_cons_self
    -- the node of `D` splits the ordering as `D` splits the declarations
    obtain ⟨l₁, l₂, rfl, hbefore, hrest⟩ := List.filterMap_eq_append_iff.mp hds
    obtain ⟨l₃, n, l₄, rfl, hnone, hn, -⟩ := List.filterMap_eq_cons_iff.mp hrest
    obtain rfl := H.name_of_get? hn
    have hnode := hl.dependencies_before (List.append_assoc l₁ l₃ _).symm _ (hdepends hD hE hdep)
    have hget := (hmem.mp hE).1
    rcases List.mem_append.mp hnode with hl₁ | hl₃
    · exact hbefore ▸ List.mem_filterMap.mpr ⟨E.name, hl₁, hget⟩
    · rw [hnone _ hl₃] at hget
      cases hget

/-- If no name is unresolved, no name of a definition is taken and no interface is a scalar, then the
emitted declarations depend on each other only. -/
theorem dependencyClosed (H : s.Covers o t definitions) (h : s.emitted = .ok ds)
    (hunresolved : s.unresolved = []) (hnames : ∀ d ∈ definitions, d.name ∉ t.taken)
    (hinterfaces : ∀ d ∈ definitions, ∀ i ∈ d.content.interfaces, t.contains i = false) :
    DependencyClosed ds := by
  intro D hD n hn
  obtain ⟨hget, -⟩ := (H.mem_emitted h).mp hD
  obtain ⟨d, hd, -, hok⟩ := H.declared hget
  rw [(declares_of_ok hok).dependsOn, Content.mem_dependencies] at hn
  have hmentioned : n ∈ d.content.typeNames ∨ n ∈ d.content.interfaces :=
    hn.imp_left fun hmember => List.mem_append_right _ hmember.1
  have hscalar : t.contains n = false := hn.elim And.right (hinterfaces d hd n)
  have hdeclared : n ∈ definitions.map (·.name) := by
    by_contra hnew
    have hmem := H.mem_unresolved.mpr ⟨⟨d, hd, hmentioned⟩, hscalar, hnew⟩
    rw [hunresolved] at hmem
    cases hmem
  obtain ⟨E, hE⟩ := Option.isSome_iff_exists.mp (H.contains.mpr hdeclared)
  obtain rfl := H.name_of_get? hE
  obtain ⟨e, he, hname⟩ := List.mem_map.mp hdeclared
  exact ⟨E, (H.mem_emitted h).mpr ⟨hE, hname ▸ hnames e he⟩, rfl⟩

end Covers

end Session

/-! ## The body of a module -/

namespace Generator

variable {o : Options} {doc : Document} {comment : String} {m : GeneratedModule}

/-- The declarations of a document whose blocks make up the body, in order. -/
def emitted (o : Options) (doc : Document) : Except Failure (List Declaration) :=
  (declareSchema o (Schema.ofDocument doc).1).result >>= Session.emitted

/-- A run that ends well puts the header and the blocks of a session together. -/
theorem exists_declared_of_ok (h : (ofDocument o doc comment).result = .ok m) :
    ∃ (s : Session) (ds : List Declaration),
      (declareSchema o (Schema.ofDocument doc).1).result = .ok s ∧
      (∃ warnings, s.checkReferences = .ok warnings) ∧ s.emitted = .ok ds ∧
      m.header = s.header ∧ m.body = "\n\n".intercalate (ds.map (·.block.text)) := by
  rw [result_ofDocument] at h
  obtain ⟨s, hs, hassemble⟩ := bind_eq_ok_iff.mp h
  rw [result_assemble] at hassemble
  obtain ⟨warnings, hwarnings, hmodule⟩ := bind_eq_ok_iff.mp hassemble
  obtain ⟨body, hbody, rfl⟩ := map_eq_ok_iff.mp hmodule
  obtain ⟨ds, hds, htext⟩ := Session.exists_emitted_of_body hbody
  exact ⟨s, ds, hs, ⟨warnings, hwarnings⟩, hds, rfl, htext⟩

/-- A run that ends well had a session whose names were resolved as far as the options ask, and whose
blocks are the body. -/
theorem exists_session_of_ok (h : (ofDocument o doc comment).result = .ok m) :
    ∃ (overrides : Overrides) (s : Session) (ds : List Declaration), o.overrides = .ok overrides ∧
      s.Covers o (doc.scalarTable overrides) doc.definitions ∧
      (o.strict = true → s.unresolved = []) ∧ s.emitted = .ok ds ∧ emitted o doc = .ok ds ∧
      m.body = "\n\n".intercalate (ds.map (·.block.text)) := by
  obtain ⟨s, ds, hs, ⟨warnings, hwarnings⟩, hds, -, htext⟩ := exists_declared_of_ok h
  obtain ⟨overrides, hoverrides⟩ := exists_overrides hs
  have hcovers := covers_of_declareSchema hoverrides hs
  have hemitted : emitted o doc = .ok ds := by
    rw [emitted, hs]
    exact hds
  refine ⟨overrides, s, ds, hoverrides, hcovers, fun hstrict => ?_, hds, hemitted, htext⟩
  by_contra hne
  rw [Session.checkReferences_eq, if_pos ⟨hcovers.options ▸ hstrict, hne⟩] at hwarnings
  cases hwarnings

theorem exists_emitted_of_ok {overrides : Overrides} (hoverrides : o.overrides = .ok overrides)
    (h : (ofDocument o doc comment).result = .ok m) :
    ∃ (s : Session) (ds : List Declaration),
      s.Covers o (doc.scalarTable overrides) doc.definitions ∧ s.emitted = .ok ds ∧
      emitted o doc = .ok ds ∧ m.header = s.header ∧
      m.body = "\n\n".intercalate (ds.map (·.block.text)) := by
  obtain ⟨s, ds, hs, -, hds, hheader, hbody⟩ := exists_declared_of_ok h
  refine ⟨s, ds, covers_of_declareSchema hoverrides hs, hds, ?_, hheader, hbody⟩
  rw [emitted, hs]
  exact hds

/-- The body is made of the blocks of declarations, each after those on which it depends. In strict
mode every name on which one depends has its block as well, unless scalars get in the way. -/
theorem blocks_after_dependencies (h : (ofDocument o doc comment).result = .ok m) :
    ∃ (overrides : Overrides) (ds : List Declaration), o.overrides = .ok overrides ∧
      emitted o doc = .ok ds ∧ m.body = "\n\n".intercalate (ds.map (·.block.text)) ∧
      (∀ D ∈ ds, ∃ d ∈ doc.definitions, D.name = d.name ∧
        D.dependsOn = d.content.dependencies (doc.scalarTable overrides) ∧
        (o.declare (doc.scalarTable overrides) d.widen).result = .ok D) ∧
      DependencyOrdered ds ∧
      (o.strict = true → (∀ d ∈ doc.definitions, d.name ∉ (doc.scalarTable overrides).taken) →
        (∀ d ∈ doc.definitions, ∀ i ∈ d.content.interfaces,
          (doc.scalarTable overrides).contains i = false) →
        DependencyClosed ds) := by
  obtain ⟨overrides, s, ds, hoverrides, hcovers, hresolved, hds, hemitted, hbody⟩ :=
    exists_session_of_ok h
  refine ⟨overrides, ds, hoverrides, hemitted, hbody, fun D hD => ?_, hcovers.dependencyOrdered hds,
    fun hstrict => hcovers.dependencyClosed hds (hresolved hstrict)⟩
  obtain ⟨hget, -⟩ := (hcovers.mem_emitted hds).mp hD
  obtain ⟨d, hd, -, hok⟩ := hcovers.declared hget
  have hdeclares := declares_of_ok hok
  exact ⟨d, hd, hdeclares.name, hdeclares.dependsOn, hok⟩

/-- A union stands after its member, and the member after its interface. -/
theorem blocks_after_dependencies_union :
    let doc : Document := ⟨[.definition "Pet" (.union [.named "Cat"]),
      .definition "Cat" (.object [⟨"name", .named "String"⟩] ["Animal"]),
      .definition "Animal" (.interface [⟨"name", .named "String"⟩])]⟩
    ∃ m, (ofDocument { strict := true } doc "").result = .ok m ∧
      ∃ ds, emitted { strict := true } doc = .ok ds ∧
        m.body = "\n\n".intercalate (ds.map (·.block.text)) ∧
        DependencyOrdered ds ∧ DependencyClosed ds := by
  intro doc
  have ho : Options.Usable { strict := true } {} ["copy"] := ⟨rfl, rfl⟩
  have hrank : ¬HasCycle (doc.scalarTable {}) doc.definitions :=
    not_hasCycle_of_rank (fun n => if n = "Animal" then 0 else if n = "Cat" then 1 else 2)
      (by decide +kernel)
  have hnames : unresolvedNames (doc.scalarTable {}) doc.definitions = [] := by decide +kernel
  obtain ⟨m, hm⟩ := (result_of_resolved ho (by decide +kernel) "" fun h => h.2 hnames).2 hrank
  obtain ⟨overrides, ds, hoverrides, hemitted, hbody, -, hordered, hclosed⟩ :=
    blocks_after_dependencies hm
  cases hoverrides
  exact ⟨m, hm, ds, hemitted, hbody, hordered, hclosed rfl (by decide +kernel) (by decide +kernel)⟩

/-- If all definitions have different names then each has its block once in the body, unless its name
belongs to a scalar type: then it has no block at all. -/
theorem count_block (hnames : (doc.definitions.map (·.name)).Nodup)
    (h : (ofDocument o doc comment).result = .ok m) :
    ∃ (overrides : Overrides) (ds : List Declaration), o.overrides = .ok overrides ∧
      emitted o doc = .ok ds ∧ m.body = "\n\n".intercalate (ds.map (·.block.text)) ∧
      ∀ d ∈ doc.definitions, ∃ D, (o.declare (doc.scalarTable overrides) d.widen).result = .ok D ∧
        D.block.name = d.name ∧
        (d.name ∉ (doc.scalarTable overrides).taken → (ds.map (·.block)).count D.block = 1) ∧
        (d.name ∈ (doc.scalarTable overrides).taken → (ds.map (·.block)).count D.block = 0) := by
  obtain ⟨overrides, s, ds, hoverrides, hcovers, -, hds, hemitted, hbody⟩ := exists_session_of_ok h
  have hblock : ∀ D ∈ ds, D.block.name = D.name := fun D => hcovers.block_name_of_mem hds
  have hnodup : (ds.map (·.block)).Nodup := by
    refine List.Nodup.of_map Block.name ?_
    rw [List.map_map, List.map_congr_left (g := (·.name)) hblock]
    exact (hcovers.dependencyOrdered hds).nodup
  refine ⟨overrides, ds, hoverrides, hemitted, hbody, fun d hd => ?_⟩
  obtain ⟨D, hok, hget⟩ := hcovers.get? hnames hd
  have hdeclares := declares_of_ok hok
  refine ⟨D, hok, hdeclares.block, fun hfree => ?_, fun htaken => ?_⟩
  · rw [← hdeclares.name] at hget hfree
    have hD : D ∈ ds := (hcovers.mem_emitted hds).mpr ⟨hget, hfree⟩
    exact List.count_eq_one_of_mem hnodup (List.mem_map_of_mem hD)
  · refine List.count_eq_zero_of_not_mem fun hmem => ?_
    obtain ⟨E, hE, heq⟩ := List.mem_map.mp hmem
    have hname : E.name = d.name := by rw [← hblock E hE, heq, hdeclares.block]
    exact ((hcovers.mem_emitted hds).mp hE).2 (hname ▸ htaken)

/-- Of two types, one is named like the type that admits every value: it has no block. -/
theorem count_block_any :
    let fields : List (Field Empty) := [⟨"id", .nonNull (.named "ID")⟩]
    let doc : Document := ⟨[.definition "Any" (.object fields []), .definition "Cat" (.input fields)]⟩
    (doc.definitions.map (·.name)).Nodup ∧
      ∃ m, (ofDocument {} doc "").result = .ok m ∧ m.body = "class Cat(BaseModel):\n    id: str" ∧
        ∃ ds, emitted {} doc = .ok ds ∧ m.body = "\n\n".intercalate (ds.map (·.block.text)) ∧
          ∀ d ∈ doc.definitions, ∃ D : Declaration, D.block.name = d.name ∧
            (ds.map (·.block)).count D.block = if d.name = "Any" then 0 else 1 := by
  intro fields doc
  have hnames : (doc.definitions.map (·.name)).Nodup := by decide +kernel
  have hrun : (ofDocument {} doc "").result.toOption.map (·.body) =
      some "class Cat(BaseModel):\n    id: str" := by decide +kernel
  obtain ⟨m, hm, hbody⟩ := Option.map_eq_some_iff.mp hrun
  obtain ⟨overrides, ds, hoverrides, hemitted, hblocks, hcount⟩ :=
    count_block hnames (eq_ok_of_toOption hm)
  refine ⟨hnames, m, eq_ok_of_toOption hm, hbody, ds, hemitted, hblocks, fun d hd => ?_⟩
  obtain ⟨D, -, hname, hfree, htaken⟩ := hcount d hd
  cases hoverrides
  refine ⟨D, hname, ?_⟩
  have hiff : ∀ d ∈ doc.definitions, d.name ∈ (doc.scalarTable {}).taken ↔ d.name = "Any" := by
    decide +kernel
  split
  · exact htaken ((hiff d hd).mpr ‹_›)
  · exact hfree (mt (hiff d hd).mp ‹_›)

/-- The module of a single type of that name is empty. -/
theorem body_any :
    let doc : Document := ⟨[.definition "Any" (.object [⟨"id", .nonNull (.named "ID")⟩] [])]⟩
    (doc.definitions.map (·.name)).Nodup ∧
      ∃ m, (ofDocument {} doc "").result = .ok m ∧ m.body = "" := by
  intro doc
  have hrun : (ofDocument {} doc "").result.toOption.map (·.body) = some "" := by decide +kernel
  obtain ⟨m, hm, hbody⟩ := Option.map_eq_some_iff.mp hrun
  exact ⟨by decide +kernel, m, eq_ok_of_toOption hm, hbody⟩

end Generator

end SchemaModels
