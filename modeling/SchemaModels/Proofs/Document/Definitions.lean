import SchemaModels.Proofs.Document.Names
import SchemaModels.Proofs.Positions

/-! # What definitions are made of

A definition has the parts that it was declared with, then those of its extensions in the order in which
these stand in the document (`Content.project_contentWith`). -/

namespace SchemaModels

namespace Content

/-- A part of contents that is put together as contents are. -/
def Additive {α : Type} (g : Content Empty → List α) : Prop :=
  ∀ {c part c' : Content Empty}, c.append? part = some c' → g c' = g c ++ g part

theorem additive_values : Additive values := by
  intro c part c' h
  cases c <;> cases part <;> cases h <;> rfl

theorem additive_fields : Additive fields := by
  intro c part c' h
  cases c <;> cases part <;> cases h <;> rfl

theorem additive_members : Additive members := by
  intro c part c' h
  cases c <;> cases part <;> cases h <;> rfl

theorem additive_interfaces : Additive interfaces := by
  intro c part c' h
  cases c <;> cases part <;> cases h <;> rfl

theorem exists_append? {c part : Content Empty} (h : part.kind = c.kind) :
    ∃ c', c.append? part = some c' := by
  cases hc : c.append? part with
  | none => exact absurd h (kind_ne_of_append? hc)
  | some c' => exact ⟨c', rfl⟩

theorem kind_contentWith (c : Content Empty) (parts : List (Content Empty)) :
    (Document.contentWith c parts).kind = c.kind := by
  cases c with
  | other gap => exact gap.elim
  | _ => rfl

/-- A content with others after it has the parts of all of them, in order. -/
theorem project_contentWith {α : Type} {g : Content Empty → List α} (hg : Additive g)
    {c : Content Empty} {parts : List (Content Empty)} (h : ∀ part ∈ parts, part.kind = c.kind) :
    g (Document.contentWith c parts) = g c ++ parts.flatMap g := by
  induction parts generalizing c with
  | nil => rw [Document.contentWith_nil, List.flatMap_nil, List.append_nil]
  | cons part parts ih =>
    obtain ⟨c', hc'⟩ := exists_append? (h part List.mem_cons_self)
    have hkind := (kind_of_append? hc').2
    have hrest : ∀ p ∈ parts, p.kind = c'.kind := fun p hp =>
      (h p (List.mem_cons_of_mem part hp)).trans hkind.symm
    rw [Document.contentWith_cons hc', ih hrest, hg hc', List.flatMap_cons, List.append_assoc]

end Content

namespace Document

theorem kind_of_mem_extensionsOf {name : String} {kind : Kind} {nodes : List Node}
    {part : Content Empty} (h : part ∈ extensionsOf name kind nodes) :
    part.kind = kind ∧ .extension name part ∈ nodes := by
  obtain ⟨node, hnode, hpart⟩ := List.mem_filterMap.mp h
  cases node with
  | extension n p =>
    dsimp only at hpart
    split at hpart
    case isTrue hsame =>
      rw [Bool.and_eq_true, beq_iff_eq, beq_iff_eq] at hsame
      cases hpart
      exact ⟨hsame.2, hsame.1 ▸ hnode⟩
    case isFalse => cases hpart
  | _ => cases hpart

variable {doc : Document} {d : Definition Empty}

theorem mem_definitionsFrom {p : Nat} {nodes : List Node} (h : d ∈ Schema.definitionsFrom p nodes) :
    .definition d.name d.content ∈ nodes := by
  induction nodes generalizing p with
  | nil => cases h
  | cons node nodes ih =>
    cases node with
    | definition name content =>
      rcases List.mem_cons.mp h with rfl | h
      · exact List.mem_cons_self
      · exact List.mem_cons_of_mem _ (ih h)
    | _ => exact List.mem_cons_of_mem _ (ih h)

/-- A definition is as some node has it, or it has its extensions too. -/
theorem exists_definition_node (h : d ∈ doc.definitions) :
    ∃ content, .definition d.name content ∈ doc.nodes ∧
      (d.content = content ∨
        d.content = contentWith content (extensionsOf d.name content.kind doc.nodes)) := by
  have hextended : ∀ ds : List (Definition Empty), d ∈ extendedAll doc.nodes ds →
      ∃ d' ∈ ds, d = d' ∨ d = extended doc.nodes d' := by
    intro ds hd
    induction ds with
    | nil => cases hd
    | cons d' ds ih =>
      rw [extendedAll] at hd
      rcases List.mem_cons.mp hd with rfl | hd
      · refine ⟨d', List.mem_cons_self, ?_⟩
        split
        · exact .inl rfl
        · exact .inr rfl
      · obtain ⟨d'', hmem, heq⟩ := ih hd
        exact ⟨d'', List.mem_cons_of_mem d' hmem, heq⟩
  -- the nodes of both forms are those that the definitions were made of
  obtain ⟨d', hd', heq⟩ := hextended _ h
  have hnode := mem_definitionsFrom hd'
  rcases heq with rfl | rfl
  · exact ⟨d.content, hnode, .inl rfl⟩
  · exact ⟨d'.content, hnode, .inr rfl⟩

/-- If all names are different then a definition is a node with all extensions of its name and kind. -/
theorem exists_extended_node (hnames : (doc.definitions.map (·.name)).Nodup) (h : d ∈ doc.definitions) :
    ∃ content, .definition d.name content ∈ doc.nodes ∧
      d.content = contentWith content (extensionsOf d.name content.kind doc.nodes) := by
  have hmem : d.unplaced ∈ doc.definitions.map Definition.unplaced := List.mem_map_of_mem h
  rw [unplaced_definitions hnames, List.mem_map] at hmem
  obtain ⟨⟨name, content⟩, hnode, heq⟩ := hmem
  obtain ⟨node, hnode, hsome⟩ := List.mem_filterMap.mp hnode
  obtain ⟨hname, hcontent⟩ := Prod.mk.inj heq
  cases node with
  | definition n c =>
    cases hsome
    exact ⟨content, hname ▸ hnode, hcontent.symm.trans (by rw [hname])⟩
  | _ => cases hsome

/-! ## Proper names -/

theorem names_contentWith {P : String → Prop} {c : Content Empty} {parts : List (Content Empty)}
    (hkinds : ∀ part ∈ parts, part.kind = c.kind) (hc : ∀ n ∈ c.names, P n)
    (hparts : ∀ part ∈ parts, ∀ n ∈ part.names, P n) : ∀ n ∈ (contentWith c parts).names, P n := by
  have hpart (part : Content Empty) (h : part ∈ parts) :=
    Content.forall_mem_names.mp (hparts part h)
  rw [Content.forall_mem_names] at hc ⊢
  simp only [Content.project_contentWith Content.additive_values hkinds,
    Content.project_contentWith Content.additive_fields hkinds,
    Content.project_contentWith Content.additive_members hkinds,
    Content.project_contentWith Content.additive_interfaces hkinds, List.forall_mem_append,
    List.forall_mem_flatMap]
  exact ⟨⟨hc.1, fun part h => (hpart part h).1⟩, ⟨hc.2.1, fun part h => (hpart part h).2.1⟩,
    ⟨hc.2.2.1, fun part h => (hpart part h).2.2.1⟩, hc.2.2.2, fun part h => (hpart part h).2.2.2⟩

/-- The definitions of a document have proper names if its nodes have them. -/
theorem WellNamed.definition (hdoc : doc.WellNamed) (h : d ∈ doc.definitions) :
    isName d.name = true ∧ ∀ n ∈ d.content.names, isName n = true := by
  obtain ⟨content, hnode, hcontent⟩ := exists_definition_node h
  obtain ⟨hname, hnames⟩ := List.forall_mem_cons.mp (hdoc _ hnode)
  refine ⟨hname, ?_⟩
  rcases hcontent with hcontent | hcontent
  · rwa [hcontent]
  · rw [hcontent]
    refine names_contentWith (fun part hpart => (kind_of_mem_extensionsOf hpart).1) hnames
      fun part hpart => ?_
    exact (List.forall_mem_cons.mp (hdoc _ (kind_of_mem_extensionsOf hpart).2)).2

end Document

end SchemaModels
