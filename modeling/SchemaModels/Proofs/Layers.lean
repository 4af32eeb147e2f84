import SchemaModels.Proofs.Outcome

/-! # Schemas in layers

A union has to stand after its members and an object type after its interfaces; nothing else asks for an
order, in particular no type of a field does. So if no member of a union is a union, and no interface of
an object type is an object type or a union, then names lie in three layers and every dependency leads
down: unions, object types, all other names. Such a schema has no cycle, whatever its fields refer to. -/

namespace SchemaModels

variable {ds : List (Definition Empty)} {t : ScalarTable} {n : String}

/-- A definition of this kind has the name. -/
def DeclaredAs (ds : List (Definition Empty)) (kind : Kind) (n : String) : Prop :=
  ∃ d ∈ ds, d.name = n ∧ d.content.kind = kind

instance (kind : Kind) : DecidablePred (DeclaredAs ds kind) := fun n =>
  inferInstanceAs (Decidable (∃ d ∈ ds, d.name = n ∧ d.content.kind = kind))

/-- Definitions in which no member of a union is a union, and nothing implements an object type or a
union. Names that are not declared may stand anywhere. -/
structure Layered (ds : List (Definition Empty)) : Prop where
  members : ∀ d ∈ ds, ∀ r ∈ d.content.members, ¬DeclaredAs ds .union r.innermost
  interfaces : ∀ d ∈ ds, ∀ i ∈ d.content.interfaces,
    ¬DeclaredAs ds .object i ∧ ¬DeclaredAs ds .union i

/-- The layer of a name. -/
def layer (ds : List (Definition Empty)) (n : String) : Nat :=
  if DeclaredAs ds .union n then 2 else if DeclaredAs ds .object n then 1 else 0

theorem layer_of_union (h : DeclaredAs ds .union n) : layer ds n = 2 := if_pos h

theorem layer_of_not_union (h : ¬DeclaredAs ds .union n) : layer ds n ≤ 1 := by
  rw [layer, if_neg h]
  split <;> omega

theorem layer_of_object (h : DeclaredAs ds .object n) : 1 ≤ layer ds n := by
  rw [layer, if_pos h]
  split <;> omega

theorem layer_of_neither (hobject : ¬DeclaredAs ds .object n) (hunion : ¬DeclaredAs ds .union n) :
    layer ds n = 0 := by
  rw [layer, if_neg hunion, if_neg hobject]

theorem Content.kind_of_mem_members {c : Content Empty} {r : TypeRef Empty} (h : r ∈ c.members) :
    c.kind = .union := by
  cases c with
  | union members => rfl
  | enum | interface | object | input => cases h
  | other gap => exact gap.elim

theorem Content.kind_of_mem_interfaces {c : Content Empty} (h : n ∈ c.interfaces) :
    c.kind = .object := by
  cases c with
  | object fields interfaces => rfl
  | enum | union | interface | input => cases h
  | other gap => exact gap.elim

namespace Layered

/-- Every dependency leads to a lower layer. -/
theorem layer_lt (H : Layered ds) {d : Definition Empty} (hd : d ∈ ds)
    (hn : n ∈ d.content.dependencies t) : layer ds n < layer ds d.name := by
  rcases Content.mem_dependencies.mp hn with ⟨hmember, -⟩ | hinterface
  · obtain ⟨r, hr, rfl⟩ := List.mem_map.mp hmember
    have hunion : DeclaredAs ds .union d.name := ⟨d, hd, rfl, Content.kind_of_mem_members hr⟩
    have hmember := layer_of_not_union (H.members d hd r hr)
    rw [layer_of_union hunion]
    omega
  · have hobject : DeclaredAs ds .object d.name :=
      ⟨d, hd, rfl, Content.kind_of_mem_interfaces hinterface⟩
    obtain ⟨hnobject, hnunion⟩ := H.interfaces d hd n hinterface
    rw [layer_of_neither hnobject hnunion]
    exact layer_of_object hobject

theorem not_hasCycle (H : Layered ds) (t : ScalarTable) : ¬HasCycle t ds :=
  not_hasCycle_of_rank (layer ds) fun _ hd _ hn => H.layer_lt hd hn

end Layered

namespace Generator

/-- A run on a schema in layers never ends in a cycle: it gives a module unless a name cannot be written
or, in strict mode, is unresolved. The definitions are those with their extensions, and their names may
even repeat. -/
theorem result_of_layered (c : Settings) (hc : c.WellTyped) (doc : Document)
    (hdoc : Layered doc.definitions) (comment : String) :
    (∀ cycle, (ofDocument c.options doc comment).result ≠ .error (.cycle cycle)) ∧
      ∃ overrides reserved, c.options.Usable overrides reserved ∧
        (doc.offences reserved = [] →
          ¬(c.options.strict = true ∧
            unresolvedNames (doc.scalarTable overrides) doc.definitions ≠ []) →
          ∃ m, (ofDocument c.options doc comment).result = .ok m) := by
  obtain ⟨overrides, reserved, ho⟩ := hc.exists_usable
  have hacyclic := hdoc.not_hasCycle (doc.scalarTable overrides)
  refine ⟨fun cycle => ?_, overrides, reserved, ho, fun hoffences hresolved =>
    (result_of_resolved ho hoffences comment hresolved).2 hacyclic⟩
  -- the run fails for an offence, for unresolved names, or not at all
  cases hoffences : doc.offences reserved with
  | cons p rest =>
    obtain ⟨owner, name⟩ := p
    rw [result_of_offence ho hoffences]
    simp
  | nil =>
    by_cases hunresolved : c.options.strict = true ∧
        unresolvedNames (doc.scalarTable overrides) doc.definitions ≠ []
    · rw [result_of_unresolved ho hoffences comment hunresolved.1 hunresolved.2]
      simp
    · obtain ⟨m, hm⟩ := (result_of_resolved ho hoffences comment hunresolved).2 hacyclic
      rw [hm]
      simp

/-- Types that refer to each other in a circle, through fields and through a union, with members and
interfaces that come by extensions or are not declared at all. -/
theorem result_of_layered_circle :
    let doc : Document := ⟨[.definition "Pet" (.union [.named "Cat", .named "Ghost"]),
      .definition "Cat" (.object [⟨"friend", .nonNull (.named "Dog")⟩] ["Animal", "Unknown"]),
      .definition "Dog" (.object [⟨"friend", .named "Cat"⟩, ⟨"self", .list (.named "Dog")⟩] []),
      .definition "Animal" (.interface [⟨"pet", .named "Pet"⟩]),
      .extension "Dog" (.object [] ["Animal"]), .extension "Pet" (.union [.named "Dog"])]⟩
    Settings.WellTyped {} ∧ Layered doc.definitions ∧
      (∀ cycle, (ofDocument (Settings.options {}) doc "").result ≠ .error (.cycle cycle)) ∧
      ∃ m, (ofDocument (Settings.options {}) doc "").result = .ok m := by
  intro doc
  have hc : Settings.WellTyped {} := ⟨⟨[], rfl, List.forall_mem_nil _⟩, ⟨_, rfl⟩⟩
  have hdoc : Layered doc.definitions := ⟨by decide +kernel, by decide +kernel⟩
  obtain ⟨hcycle, overrides, reserved, ho, hmodule⟩ := result_of_layered {} hc doc hdoc ""
  cases ho.reserved
  refine ⟨hc, hdoc, hcycle, hmodule (by decide +kernel) fun h => ?_⟩
  exact Bool.false_ne_true h.1

end Generator

end SchemaModels
