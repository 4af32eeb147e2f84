import SchemaModels.Proofs.Calls
import SchemaModels.Proofs.Emission

/-! # Blocks and their context

What a definition is written as depends on the options and the scalars of a session, and a session keeps
these however it grows. So the body of a module can be put together from blocks that are written one by
one, each in a session of its own (`Generator.body_of_separate_blocks`). -/

namespace SchemaModels

/-- The definition of a name in a document. -/
def Document.definitionOf? (doc : Document) (name : String) : Option (Definition Empty) :=
  doc.definitions.find? (·.name == name)

theorem Document.mem_of_definitionOf? {doc : Document} {name : String} {d : Definition Empty}
    (h : doc.definitionOf? name = some d) : d ∈ doc.definitions ∧ d.name = name := by
  rw [definitionOf?] at h
  have hname := List.find?_some h
  exact ⟨List.mem_of_find?_eq_some h, beq_iff_eq.mp hname⟩

theorem Document.definitionOf?_eq_none_iff {doc : Document} {name : String} :
    doc.definitionOf? name = none ↔ name ∉ doc.definitions.map (·.name) := by
  rw [definitionOf?, List.find?_eq_none, List.mem_map]
  simp only [beq_iff_eq, not_exists, not_and]

namespace Session

variable {s s' : Session} {o : Options} {t : ScalarTable} {ds : List (Definition Empty)}

/-- The block that a session writes for a definition. -/
def block (s : Session) (d : Definition Empty) : Except Failure Block :=
  (s.declare d.widen).2.map (·.block)

theorem block_eq (s : Session) (d : Definition Empty) :
    s.block d = (s.options.declare s.scalars d.widen).result.map (·.block) :=
  rfl

/-- However a session grows, it writes the same blocks. -/
theorem Grows.block_eq (h : s.Grows s') (d : Definition Empty) : s'.block d = s.block d := by
  rw [Session.block_eq, h.options, h.scalars, ← Session.block_eq]

/-- Definitions that can be declared one by one can be declared in one session, which grows by it. -/
theorem exists_grows_declareAll
    (h : ∀ d ∈ ds, ∃ D, (s.options.declare s.scalars d.widen).result = .ok D) :
    ∃ s', (Generator.declareAll s ds).result = .ok s' ∧ s.Grows s' := by
  induction ds generalizing s with
  | nil => exact ⟨s, rfl, .refl s⟩
  | cons d ds ih =>
    obtain ⟨D, hD⟩ := h d List.mem_cons_self
    have hdeclare := declare_of_ok hD
    have hstep : s.Grows ((s.declare d.widen).1.addDeclaration D) :=
      (s.grows_record _).trans (grows_addDeclaration _ D)
    obtain ⟨s', hs', hgrows⟩ := ih (s := (s.declare d.widen).1.addDeclaration D) fun e he => by
      rw [hstep.options, hstep.scalars]
      exact h e (List.mem_cons_of_mem d he)
    refine ⟨s', ?_, hstep.trans hgrows⟩
    rw [Generator.declareAll, ← hs', hdeclare]

/-- A declared name has the block that its definition has in any session with the same options and
scalars. -/
theorem Covers.map_block {doc : Document} (H : s.Covers o t doc.definitions)
    (hnames : (doc.definitions.map (·.name)).Nodup) (positions : Table String Int) (name : String) :
    (doc.definitionOf? name).map (initial o t positions).block =
      (s.declarations.get? name).map fun D => .ok D.block := by
  cases hd : doc.definitionOf? name with
  | some d =>
    obtain ⟨hmem, rfl⟩ := Document.mem_of_definitionOf? hd
    obtain ⟨D, hD, hget⟩ := H.get? hnames hmem
    rw [hget, Option.map_some, Option.map_some, block_eq]
    exact congrArg (some ∘ Except.map (·.block)) hD
  | none =>
    have hnone : s.declarations.get? name = none := by
      rw [← Option.not_isSome_iff_eq_none]
      exact fun hsome => Document.definitionOf?_eq_none_iff.mp hd (H.contains.mp hsome)
    rw [hnone]
    rfl

end Session

namespace Generator

open Session

variable {o : Options} {doc : Document} {comment : String} {m : GeneratedModule}

/-- If all definitions have different names then the body is made of blocks that do not depend on each
other: they are the blocks of the definitions in dependency order, each as a session writes it in which
nothing else is declared. Nothing that is declared before in a run, and no other calls on a session,
make a difference to what a definition is written as. -/
theorem body_of_separate_blocks (hnames : (doc.definitions.map (·.name)).Nodup)
    (h : (ofDocument o doc comment).result = .ok m) :
    ∃ (s : Session) (order : List String) (blocks : List Block),
      (declareSchema o (Schema.ofDocument doc).1).result = .ok s ∧ s.graph.order = .ok order ∧
      m.body = "\n\n".intercalate (blocks.map Block.text) ∧
      ∀ positions, ∃ fresh, start o (doc.nodes.filterMap Schema.scalarName?) positions = .ok fresh ∧
        (order.filterMap doc.definitionOf?).map fresh.block = blocks.map .ok ∧
        (∀ before d after, doc.definitions = before ++ d :: after →
          ∃ s', (declareAll fresh before).result = .ok s' ∧ s'.block d = fresh.block d) ∧
        ∀ actions d, (fresh.performAll actions).block d = fresh.block d := by
  obtain ⟨s, Ds, hs, -, hDs, -, hbody⟩ := exists_declared_of_ok h
  obtain ⟨overrides, hoverrides⟩ := exists_overrides hs
  have H := covers_of_declareSchema hoverrides hs
  obtain ⟨order, horder, rfl⟩ := exists_order_of_emitted hDs
  refine ⟨s, order, _, hs, horder, by rw [hbody, List.map_map]; rfl, fun positions => ?_⟩
  refine ⟨initial o (doc.scalarTable overrides) positions, ?_, ?_, fun before d after hsplit => ?_,
    fun actions d => (grows_performAll _ actions).block_eq d⟩
  · rw [start_eq, hoverrides]
    rfl
  · rw [List.map_filterMap, List.map_map, List.map_filterMap]
    exact List.filterMap_congr fun name _ => H.map_block hnames positions name
  · have hbefore : ∀ d ∈ before, d ∈ doc.definitions := by
      intro d hd
      rw [hsplit]
      exact List.mem_append_left _ hd
    obtain ⟨s', hs', hgrows⟩ := exists_grows_declareAll
      (s := initial o (doc.scalarTable overrides) positions)
      fun d hd => H.declares d (hbefore d hd)
    exact ⟨s', hs', hgrows.block_eq d⟩

/-- A union of a type and of a name that nothing declares; the type has the same block before and after
the union. -/
theorem body_of_separate_blocks_union :
    let cat : Definition Empty := ⟨"Cat", 1, .object [⟨"name", .nonNull (.named "String")⟩] []⟩
    let doc : Document := ⟨[.definition "Pet" (.union [.named "Cat", .named "Ghost"]),
      .definition "Cat" cat.content]⟩
    let union : Action := .declare ⟨"Pet", 0, .union [.named "Cat", .named "Ghost"]⟩
    (doc.definitions.map (·.name)).Nodup ∧ doc.definitionOf? "Ghost" = none ∧
      ∃ (m : GeneratedModule) (order : List String) (blocks : List Block),
        (ofDocument {} doc "").result = .ok m ∧
        m.body = "\n\n".intercalate (blocks.map Block.text) ∧
        ∃ fresh, start {} [] ∅ = .ok fresh ∧
          (order.filterMap doc.definitionOf?).map fresh.block = blocks.map .ok ∧
          fresh.block cat = .ok (.classBody "Cat" ["BaseModel"] ["    name: str"]) ∧
          (fresh.performAll [union]).block cat = fresh.block cat := by
  intro cat doc union
  have hnames : (doc.definitions.map (·.name)).Nodup := by decide +kernel
  have ho : Options.Usable {} {} ["copy"] := ⟨rfl, rfl⟩
  have hrank : ¬HasCycle (doc.scalarTable {}) doc.definitions :=
    not_hasCycle_of_rank (fun n => if n = "Pet" then 1 else 0) (by decide +kernel)
  obtain ⟨m, hm⟩ :=
    (result_of_resolved ho (by decide +kernel) "" fun h => Bool.false_ne_true h.1).2 hrank
  obtain ⟨s, order, blocks, -, -, hbody, hfresh⟩ := body_of_separate_blocks hnames hm
  obtain ⟨fresh, hstart, hblocks, -, hcalls⟩ := hfresh ∅
  refine ⟨hnames, by decide +kernel, m, order, blocks, hm, hbody, fresh, hstart, hblocks, ?_,
    hcalls [union] cat⟩
  cases hstart
  decide +kernel

end Generator

end SchemaModels
