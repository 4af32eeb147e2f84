import Mathlib.Logic.Basic
import SchemaModels.Document.Inline
import SchemaModels.ScalarTable
import SchemaModels.Schema

/-! # The definitions of a document

Extensions are folded into the definitions one after the other. What comes out can be read off the
document: the last definition of a name takes all extensions of its name and kind, in order, and the
other definitions stay as they are (`Document.definitions`). -/

namespace SchemaModels

/-! ## Contents -/

namespace Content

variable {c part : Content Empty}

theorem kind_of_append? {c' : Content Empty} (h : c.append? part = some c') :
    part.kind = c.kind ∧ c'.kind = c.kind := by
  cases c <;> cases part <;> cases h <;> exact ⟨rfl, rfl⟩

theorem kind_ne_of_append? (h : c.append? part = none) : part.kind ≠ c.kind := by
  cases c <;> cases part <;> cases h <;> nofun

end Content

namespace Document

variable {name n : String} {kind : Kind} {part c : Content Empty} {nodes : List Node}

theorem contentWith_nil (c : Content Empty) : contentWith c [] = c := by
  cases c with
  | other gap => exact gap.elim
  | _ => simp [contentWith]

/-- Contents that are put together one by one have the parts of all of them. -/
theorem contentWith_cons {c' : Content Empty} (h : c.append? part = some c')
    (parts : List (Content Empty)) : contentWith c (part :: parts) = contentWith c' parts := by
  cases c <;> cases part <;> cases h <;> simp [contentWith, Content.values]

/-- A definition with its extensions among some nodes. -/
def extended (nodes : List Node) (d : Definition Empty) : Definition Empty :=
  { d with content := contentWith d.content (extensionsOf d.name d.content.kind nodes) }

/-- Definitions of which the last one of each name has its extensions. -/
def extendedAll (nodes : List Node) : List (Definition Empty) → List (Definition Empty)
  | [] => []
  | d :: ds =>
    (if d.name ∈ ds.map (·.name) then d else extended nodes d) :: extendedAll nodes ds

/-- The definitions of a document. -/
def definitions (doc : Document) : List (Definition Empty) :=
  extendedAll doc.nodes (Schema.definitionsFrom 0 doc.nodes)

/-- The scalars of a document, those that it declares and those that every document has. -/
def scalarTable (doc : Document) (overrides : Overrides) : ScalarTable :=
  .ofCustom (doc.nodes.filterMap Schema.scalarName?) overrides

/-! ## One more node -/

theorem extensionsOf_cons_of_ne (h : name ≠ n) :
    extensionsOf n kind (.extension name part :: nodes) = extensionsOf n kind nodes := by
  simp [extensionsOf, h]

theorem extended_cons_of_ne {d : Definition Empty} (h : name ≠ d.name) :
    extended (.extension name part :: nodes) d = extended nodes d := by
  rw [extended, extensionsOf_cons_of_ne h, extended]

/-- An extension of the right kind is taken first, then those that follow. -/
theorem extended_cons_of_append? {d : Definition Empty} (h : d.content.append? part = some c) :
    extended (.extension d.name part :: nodes) d = extended nodes { d with content := c } := by
  obtain ⟨hpart, hc⟩ := Content.kind_of_append? h
  have hextensions : extensionsOf d.name d.content.kind (.extension d.name part :: nodes) =
      part :: extensionsOf d.name c.kind nodes := by
    simp [extensionsOf, hpart, hc]
  rw [extended, hextensions, contentWith_cons h, extended]

theorem extended_cons_of_append?_eq_none {d : Definition Empty}
    (h : d.content.append? part = none) :
    extended (.extension d.name part :: nodes) d = extended nodes d := by
  simp [extended, extensionsOf, Content.kind_ne_of_append? h]

theorem extendedAll_cons_of_not_mem {ds : List (Definition Empty)} (h : name ∉ ds.map (·.name)) :
    extendedAll (.extension name part :: nodes) ds = extendedAll nodes ds := by
  induction ds with
  | nil => rfl
  | cons d ds ih =>
    rw [List.map_cons, List.mem_cons, not_or] at h
    rw [extendedAll, extendedAll, ih h.2, extended_cons_of_ne h.1]

end Document

namespace Schema

open Document

variable {name : String} {part : Content Empty} {ds ds' : List (Definition Empty)}

theorem extendLast_cons_of_mem {d : Definition Empty} (h : name ∈ ds.map (·.name)) :
    extendLast name part (d :: ds) = (extendLast name part ds).map (d :: ·) := by
  have hany : ds.any (·.name == name) = true := by simpa using h
  rw [extendLast, if_pos hany]

theorem extendLast_cons_self {d : Definition Empty} (h : d.name ∉ ds.map (·.name)) :
    extendLast d.name part (d :: ds) =
      (d.content.append? part).map fun c => { d with content := c } :: ds := by
  have hany : ¬ds.any (·.name == d.name) = true := by simpa using h
  rw [extendLast, if_neg hany, if_pos (beq_self_eq_true _)]

theorem extendLast_eq_none (h : name ∉ ds.map (·.name)) : extendLast name part ds = none := by
  cases ds with
  | nil => rfl
  | cons d ds =>
    rw [List.map_cons, List.mem_cons, not_or] at h
    have hany : ¬ds.any (·.name == name) = true := by simpa using h.2
    rw [extendLast, if_neg hany, if_neg (by simpa using Ne.symm h.1)]

theorem names_of_extendLast (h : extendLast name part ds = some ds') :
    ds'.map (·.name) = ds.map (·.name) := by
  induction ds generalizing ds' with
  | nil => cases h
  | cons d ds ih =>
    by_cases hmem : name ∈ ds.map (·.name)
    · rw [extendLast_cons_of_mem hmem] at h
      obtain ⟨es, hes, rfl⟩ := Option.map_eq_some_iff.mp h
      rw [List.map_cons, List.map_cons, ih hes]
    · by_cases hd : d.name = name
      · subst hd
        rw [extendLast_cons_self hmem] at h
        obtain ⟨c, -, rfl⟩ := Option.map_eq_some_iff.mp h
        rfl
      · rw [extendLast_eq_none (by simpa [hmem] using Ne.symm hd)] at h
        cases h

/-- Folding one extension in and then taking the others is taking all of them. -/
theorem extendedAll_getD_extendLast (nodes : List Node) :
    extendedAll nodes ((extendLast name part ds).getD ds) =
      extendedAll (.extension name part :: nodes) ds := by
  induction ds with
  | nil => rfl
  | cons d ds ih =>
    by_cases hmem : name ∈ ds.map (·.name)
    · rw [extendLast_cons_of_mem hmem]
      -- `d` is not the one that is extended: if it has the name, a later definition has it too
      have hd : (if d.name ∈ ds.map (·.name) then d else extended nodes d) =
          if d.name ∈ ds.map (·.name) then d else extended (.extension name part :: nodes) d := by
        split
        · rfl
        · rename_i hnew
          exact (extended_cons_of_ne fun heq => hnew (heq ▸ hmem)).symm
      cases hlast : extendLast name part ds with
      | none =>
        rw [hlast] at ih
        rw [Option.map_none, Option.getD_none, extendedAll, extendedAll, hd]
        exact congrArg _ ih
      | some ds' =>
        rw [hlast] at ih
        rw [Option.map_some, Option.getD_some, extendedAll, extendedAll, names_of_extendLast hlast,
          hd]
        exact congrArg _ ih
    · by_cases hd : d.name = name
      · subst hd
        rw [extendLast_cons_self hmem, extendedAll, if_neg hmem,
          extendedAll_cons_of_not_mem hmem]
        cases hc : d.content.append? part with
        | none =>
          rw [extended_cons_of_append?_eq_none hc]
          exact congrArg (· :: _) (if_neg hmem)
        | some c =>
          rw [extended_cons_of_append? hc]
          exact congrArg (· :: _) (if_neg hmem)
      · have hnew : name ∉ (d :: ds).map (·.name) := by simpa [hmem] using Ne.symm hd
        rw [extendLast_eq_none hnew, extendedAll_cons_of_not_mem hnew]
        rfl

theorem extendedAll_cons_of_other {node : Node} (h : ∀ name part, node ≠ .extension name part)
    (nodes : List Node) : extendedAll (node :: nodes) ds = extendedAll nodes ds := by
  have hnode (n : String) (kind : Kind) :
      extensionsOf n kind (node :: nodes) = extensionsOf n kind nodes := by
    cases node with
    | extension name part => exact absurd rfl (h name part)
    | _ => rfl
  induction ds with
  | nil => rfl
  | cons d ds ih => rw [extendedAll, extendedAll, ih, extended, extended, hnode]

theorem extendedAll_of_extensionsOf {nodes : List Node}
    (h : ∀ name kind, extensionsOf name kind nodes = []) : extendedAll nodes ds = ds := by
  induction ds with
  | nil => rfl
  | cons d ds ih =>
    have hd : extended nodes d = d := by rw [extended, h, contentWith_nil]
    rw [extendedAll, ih, hd, ite_self]

/-- Folding in the extensions one after the other gives every last definition all of its own. -/
theorem foldExtensions_fst (ds : List (Definition Empty)) (nodes : List Node) :
    (foldExtensions ds nodes).1 = extendedAll nodes ds := by
  induction nodes generalizing ds with
  | nil => exact (extendedAll_of_extensionsOf fun _ _ => rfl).symm
  | cons node nodes ih =>
    cases node with
    | extension name part =>
      rw [← extendedAll_getD_extendLast, foldExtensions]
      cases extendLast name part ds with
      | some ds' => exact ih ds'
      | none => exact ih ds
    | _ =>
      rw [extendedAll_cons_of_other fun _ _ => Node.noConfusion]
      exact ih ds

theorem definitions_ofDocument (doc : Document) :
    (ofDocument doc).1.definitions = doc.definitions :=
  foldExtensions_fst _ _

end Schema

end SchemaModels
