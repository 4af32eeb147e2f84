import SchemaModels.Proofs.Positions

/-! # Extensions in place

A document means the same if the extensions of its types are written into the definitions. The
definitions that come out are the same, in the same order; only their positions may differ, since
extensions leave no node. -/

namespace SchemaModels.Document

theorem extensionsOf_inline (doc : Document) (name : String) (kind : Kind) :
    extensionsOf name kind doc.inline.nodes = [] := by
  refine List.filterMap_eq_nil_iff.mpr fun node hnode => ?_
  obtain ⟨source, -, hsource⟩ := List.mem_filterMap.mp hnode
  cases source <;> cases hsource <;> rfl

theorem unplaced_definitions_inline {doc : Document} (h : (doc.definitions.map (·.name)).Nodup) :
    doc.inline.definitions.map Definition.unplaced = doc.definitions.map Definition.unplaced := by
  rw [unplaced_definitions h, definitions, Schema.extendedAll_of_extensionsOf doc.extensionsOf_inline,
    unplaced_definitionsFrom, inline, List.filterMap_filterMap, List.map_filterMap]
  -- node by node, what is written in place is what would have been folded in
  refine List.filterMap_congr fun node _ => ?_
  cases node <;> rfl

theorem scalarNames_inline (doc : Document) :
    doc.inline.nodes.filterMap Schema.scalarName? = doc.nodes.filterMap Schema.scalarName? := by
  rw [inline, List.filterMap_filterMap]
  refine List.filterMap_congr fun node _ => ?_
  cases node <;> rfl

end SchemaModels.Document

namespace SchemaModels.Generator

variable {doc : Document}

/-- Extensions are the same as their content written in place, wherever they stand: the module is the
same, or the failure is. -/
theorem result_inline (o : Options) (h : (doc.definitions.map (·.name)).Nodup) (comment : String) :
    (ofDocument o doc.inline comment).result = (ofDocument o doc comment).result :=
  result_eq_of_unplaced (Document.unplaced_definitions_inline h).symm
    doc.scalarNames_inline.symm comment

/-- Extensions of all kinds, before, between and after the types, and one of another kind than its type. -/
theorem result_inline_scattered :
    let doc : Document := ⟨[.extension "Cat" (.object [⟨"age", .named "Int"⟩] ["Animal"]),
      .definition "Cat" (.object [⟨"name", .named "String"⟩] []),
      .extension "Pet" (.union [.named "Dog"]), .definition "Kind" (.enum ["FUR"]),
      .scalarExtension "Date", .extension "Animal" (.interface [⟨"kind", .named "Kind"⟩]),
      .definition "Animal" (.interface []), .definition "Pet" (.union [.named "Cat"]),
      .extension "Query" (.input [⟨"limit", .named "Int"⟩]), .extension "Kind" (.enum ["FIN"]),
      .definition "Query" (.input [⟨"kind", .named "Kind"⟩]), .extension "Kind" (.enum ["WING"]),
      .extension "Cat" (.enum ["TABBY"]), .extension "Cat" (.object [⟨"tail", .named "Float"⟩] [])]⟩
    let inPlace : Document := ⟨[.definition "Cat" (.object
        [⟨"name", .named "String"⟩, ⟨"age", .named "Int"⟩, ⟨"tail", .named "Float"⟩] ["Animal"]),
      .definition "Kind" (.enum ["FUR", "FIN", "WING"]),
      .definition "Animal" (.interface [⟨"kind", .named "Kind"⟩]),
      .definition "Pet" (.union [.named "Cat", .named "Dog"]),
      .definition "Query" (.input [⟨"kind", .named "Kind"⟩, ⟨"limit", .named "Int"⟩])]⟩
    (doc.definitions.map (·.name)).Nodup ∧ doc.inline = inPlace ∧
      ∃ m, (ofDocument {} inPlace "").result = .ok m ∧ (ofDocument {} doc "").result = .ok m := by
  intro doc inPlace
  have hnames : (doc.definitions.map (·.name)).Nodup := by decide +kernel
  have hinline : doc.inline = inPlace := by decide +kernel
  have hrank : ¬HasCycle (inPlace.scalarTable {}) inPlace.definitions :=
    not_hasCycle_of_rank (fun n => if n = "Pet" then 2 else if n = "Cat" then 1 else 0)
      (by decide +kernel)
  have ho : Options.Usable {} {} ["copy"] := ⟨rfl, rfl⟩
  obtain ⟨m, hm⟩ :=
    (result_of_resolved ho (by decide +kernel) "" fun h => Bool.false_ne_true h.1).2 hrank
  refine ⟨hnames, hinline, m, hm, ?_⟩
  rw [← result_inline {} hnames "", hinline, hm]

end SchemaModels.Generator
