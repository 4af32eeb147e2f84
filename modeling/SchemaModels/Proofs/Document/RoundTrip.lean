import SchemaModels.Proofs.Document.Reading
import SchemaModels.Schema

/-! # Reading a printed schema

Scalars and definitions that are printed can be read back (`Document.parse_print`), so their schema is
the one that they were printed from (`Schema.ofDocument_parse_print`). -/

namespace SchemaModels

namespace Document

/-! ## Spellings -/

theorem Token.spelled_punctuator (p : Punctuator) : (Token.punctuator p).Spelled := ⟨trivial, rfl⟩

theorem Token.spelled_name {n : String} (h : isName n = true) : (Token.name n).Spelled := ⟨h, rfl⟩

theorem spelled_typeRef {r : TypeRef Empty} (h : isName r.innermost = true) :
    ∀ t ∈ r.tokens, t.Spelled := by
  induction r with
  | named n => exact List.forall_mem_singleton.mpr (Token.spelled_name h)
  | list item ih =>
    rw [TypeRef.tokens, List.cons_append, List.forall_mem_cons, List.forall_mem_append,
      List.forall_mem_singleton]
    exact ⟨Token.spelled_punctuator _, ih h, Token.spelled_punctuator _⟩
  | nonNull inner ih =>
    rw [TypeRef.tokens, List.forall_mem_append, List.forall_mem_singleton]
    exact ⟨ih h, Token.spelled_punctuator _⟩
  | other gap => exact gap.elim

theorem spelled_field {f : Field Empty} (h : ProperField f) : ∀ t ∈ f.tokens, t.Spelled := by
  rw [Field.tokens, List.forall_mem_cons, List.forall_mem_cons]
  exact ⟨Token.spelled_name h.1, Token.spelled_punctuator _, spelled_typeRef h.2⟩

section

variable {α : Type} {tokens : α → List Token} {l : List α}
  (h : ∀ a ∈ l, ∀ t ∈ tokens a, t.Spelled)

include h

theorem spelled_separated (p : Punctuator) : ∀ t ∈ separated p (l.map tokens), t.Spelled := by
  induction l with
  | nil => exact List.forall_mem_nil _
  | cons a l ih =>
    obtain ⟨ha, hl⟩ := List.forall_mem_cons.mp h
    cases l with
    | nil => exact ha
    | cons b l =>
      change ∀ t ∈ tokens a ++ .punctuator p :: separated p ((b :: l).map tokens), t.Spelled
      rw [List.forall_mem_append, List.forall_mem_cons]
      exact ⟨ha, Token.spelled_punctuator p, ih hl⟩

theorem spelled_opened {opening : Token} (hopening : opening.Spelled) (p : Punctuator) :
    ∀ t ∈ opened opening p (l.map tokens), t.Spelled := by
  rw [opened]
  split
  · exact List.forall_mem_nil _
  · exact List.forall_mem_cons.mpr ⟨hopening, spelled_separated h p⟩

theorem spelled_braced : ∀ t ∈ braced (l.map tokens), t.Spelled := by
  rw [braced]
  split
  · exact List.forall_mem_nil _
  · rw [List.cons_append, List.forall_mem_cons, List.forall_mem_append, List.forall_mem_singleton,
      ← List.flatMap_def]
    refine ⟨Token.spelled_punctuator _, ?_, Token.spelled_punctuator _⟩
    intro t ht
    obtain ⟨a, ha, hta⟩ := List.mem_flatMap.mp ht
    exact h a ha t hta

end

theorem spelled_names {ns : List String} (h : ∀ n ∈ ns, isName n = true) :
    ∀ n ∈ ns, ∀ t ∈ [Token.name n], t.Spelled :=
  fun n hn => List.forall_mem_singleton.mpr (Token.spelled_name (h n hn))

theorem Item.spelled_tokens {item : Item} (h : item.Spellable) : ∀ t ∈ item.tokens, t.Spelled := by
  cases item with
  | scalar n =>
    have hword : isName "scalar" = true := rfl
    rw [tokens, List.forall_mem_cons, List.forall_mem_singleton]
    exact ⟨Token.spelled_name hword, Token.spelled_name h⟩
  | definition n c =>
    obtain ⟨hn, hc⟩ := h
    obtain ⟨hvalues, hfields, hmembers, hinterfaces⟩ := Content.forall_mem_names.mp hc.names
    -- a keyword and a name come first, whatever follows them
    have hfirst : ∀ {word : String} {ts : List Token}, isName word = true → (∀ t ∈ ts, t.Spelled) →
        ∀ t ∈ Token.name word :: Token.name n :: ts, t.Spelled := by
      intro word ts hword hts
      rw [List.forall_mem_cons, List.forall_mem_cons]
      exact ⟨Token.spelled_name hword, Token.spelled_name hn, hts⟩
    have hbraced := spelled_braced fun f hf => spelled_field (hfields f hf)
    cases c with
    | enum values => exact hfirst rfl (spelled_braced (spelled_names hvalues))
    | union members =>
      refine hfirst rfl (spelled_opened ?_ (Token.spelled_punctuator .equals) .pipe)
      exact fun r hr => spelled_typeRef (hmembers r hr)
    | interface fields => exact hfirst rfl hbraced
    | object fields interfaces =>
      have hword : isName "implements" = true := rfl
      have hopened := spelled_opened (spelled_names hinterfaces) (Token.spelled_name hword) .amp
      exact hfirst rfl (List.forall_mem_append.mpr ⟨hopened, hbraced⟩)
    | input fields => exact hfirst rfl hbraced
    | other gap => exact gap.elim

/-- Items that are printed, with whatever ignored text between their tokens, are read back as they
are. A list for which there is no room is the only thing that stops the reading. -/
theorem parse_print {gap : Nat → String} {items : List Item} (hne : items ≠ [])
    (hitems : ∀ item ∈ items, item.Spellable) (hgap : Layout gap (words items)) :
    parse (print gap items) = Parser.guarded (items.all Parser.fitsItem) ⟨items.map Item.node⟩ := by
  have hspelled : ∀ t ∈ items.flatMap Item.tokens, t.Spelled := by
    intro t ht
    obtain ⟨item, hitem, htoken⟩ := List.mem_flatMap.mp ht
    exact Item.spelled_tokens (hitems item hitem) t htoken
  rw [parse, TokenStream.ofText, print, words, Lexer.scan_weave hspelled hgap,
    Parser.reads_document hne hitems]
  cases items.all Parser.fitsItem with
  | true => rfl
  | false => rfl

end Document

/-! ## The schema of items -/

namespace Schema

open Document

/-- The definition that an item is, at its place in a document. -/
def definitionAt? (position : Nat) : Item → Option (Definition Empty)
  | .scalar _ => none
  | .definition name content => some ⟨name, position, content⟩

/-- The name of the scalar that an item is. -/
def scalarItem? : Item → Option String
  | .scalar name => some name
  | .definition .. => none

/-- The schema that items make: the place of a definition is its index among all items. -/
def ofItems (items : List Item) : Schema where
  definitions := items.zipIdx.filterMap fun (item, i) => definitionAt? i item
  customScalars := items.filterMap scalarItem?

theorem definitionsFrom_items (position : Nat) (items : List Item) :
    definitionsFrom position (items.map Item.node) =
      (items.zipIdx position).filterMap fun (item, i) => definitionAt? i item := by
  induction items generalizing position with
  | nil => rfl
  | cons item items ih =>
    rw [List.zipIdx_cons, List.filterMap_cons, ← ih]
    cases item with
    | scalar n => rfl
    | definition n c => rfl

theorem foldExtensions_items (ds : List (Definition Empty)) (items : List Item) :
    foldExtensions ds (items.map Item.node) = (ds, []) := by
  induction items with
  | nil => rfl
  | cons item items ih =>
    cases item with
    | scalar n => exact ih
    | definition n c => exact ih

theorem ofDocument_items (items : List Item) :
    ofDocument ⟨items.map Item.node⟩ = (ofItems items, []) := by
  have hscalars : scalarName? ∘ Item.node = scalarItem? := by
    funext item
    cases item <;> rfl
  have hskipped : skipped? ∘ Item.node = fun _ => none := by
    funext item
    cases item <;> rfl
  rw [ofDocument, foldExtensions_items, definitionsFrom_items, List.filterMap_map, List.filterMap_map,
    hscalars, hskipped, List.filterMap_eq_nil_iff.mpr fun _ _ => rfl]
  rfl

/-- Scalars and definitions that are printed and read back make the schema that they made before, in the
order and at the places that they have, with nothing skipped. This holds for any ignored text between
their tokens and for types of up to 200 lists inside each other; more lists are refused. -/
theorem ofDocument_parse_print {gap : Nat → String} {items : List Item} (hne : items ≠ [])
    (hitems : ∀ item ∈ items, item.Spellable) (hgap : Layout gap (words items)) :
    (parse (print gap items)).map ofDocument =
      if ∀ item ∈ items, ∀ f ∈ item.fields, f.type.nesting ≤ 200 then .ok (ofItems items, [])
      else .error .tooDeep := by
  have hfits : items.all Parser.fitsItem = true ↔
      ∀ item ∈ items, ∀ f ∈ item.fields, f.type.nesting ≤ 200 := by
    simp only [List.all_eq_true, Parser.fitsItem, Parser.fits, decide_eq_true_eq]
    rfl
  rw [parse_print hne hitems hgap]
  split
  · rename_i h
    rw [hfits.mpr h, ← ofDocument_items]
    rfl
  · rename_i h
    rw [Bool.eq_false_iff.mpr fun hall => h (hfits.mp hall)]
    rfl

/-- Items with keywords as names, laid out with line ends, commas and comments that look like items. -/
theorem ofDocument_parse_print_keywords :
    let gap (i : Nat) : String :=
      if i % 3 = 0 then ",\r\n" else if i % 3 = 1 then "# type T \x7b a: B\n\t" else " "
    let fields : List (Field Empty) :=
      [⟨"implements", .nonNull (.list (.nonNull (.list (.named "input"))))⟩, ⟨"type", .named "scalar"⟩]
    let object : Content Empty := .object fields ["implements", "enum"]
    let union : Content Empty := .union [.named "type", .named "interface"]
    let items : List Item := [.scalar "scalar", .definition "type" object, .definition "union" union,
      .definition "interface" (.interface []), .scalar "implements",
      .definition "enum" (.enum ["enum", "input"]), .definition "in" (.input fields)]
    items ≠ [] ∧ (∀ item ∈ items, item.Spellable) ∧ Layout gap (words items) ∧
      (parse (print gap items)).map ofDocument = .ok (⟨[⟨"type", 1, object⟩, ⟨"union", 2, union⟩,
        ⟨"interface", 3, .interface []⟩, ⟨"enum", 5, .enum ["enum", "input"]⟩,
        ⟨"in", 6, .input fields⟩], ["scalar", "implements"]⟩, []) := by
  intro gap fields object union items
  have hitems : ∀ item ∈ items, item.Spellable := by decide +kernel
  have hgaps : ∀ i, isIgnored (gap i) = true ∧ gap i ≠ "" := by
    intro i
    simp only [gap]
    split
    · decide
    · split <;> decide
  have hgap : Layout gap (words items) :=
    ⟨fun i => (hgaps i).1, fun i _ _ _ _ _ _ => (hgaps (i + 1)).2⟩
  refine ⟨List.cons_ne_nil _ _, hitems, hgap, ?_⟩
  exact ofDocument_parse_print (List.cons_ne_nil _ _) hitems hgap

/-- With 201 lists inside each other, a type that is printed cannot be read back. -/
theorem ofDocument_parse_print_deep :
    let gap (_ : Nat) : String := " "
    let items : List Item :=
      [.definition "A" (.object [⟨"f", Nat.repeat .list 201 (.named "B")⟩] [])]
    items ≠ [] ∧ (∀ item ∈ items, item.Spellable) ∧ Layout gap (words items) ∧
      (parse (print gap items)).map ofDocument = .error .tooDeep := by
  intro gap items
  have hitems : ∀ item ∈ items, item.Spellable := by decide +kernel
  have hblank : isIgnored " " = true ∧ " " ≠ "" := by decide
  have hgap : Layout gap (words items) := ⟨fun _ => hblank.1, fun _ _ _ _ _ _ _ => hblank.2⟩
  have hdeep : items.all Parser.fitsItem = false := by decide +kernel
  refine ⟨List.cons_ne_nil _ _, hitems, hgap, ?_⟩
  rw [parse_print (List.cons_ne_nil _ _) hitems hgap, hdeep]
  rfl

end Schema

end SchemaModels
