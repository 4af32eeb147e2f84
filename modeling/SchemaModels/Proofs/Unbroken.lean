import SchemaModels.Proofs.Document.Definitions
import SchemaModels.Proofs.Header
import SchemaModels.Proofs.SnakeCase
import SchemaModels.Proofs.Text.Lines

/-! # The lines of a module

If the options hold no line breaks and all names are proper ones, then nothing that is written into a
block or a header holds one either, so each line of a module is a line by itself. -/

namespace SchemaModels

open Text

/-- The texts of options that can be written into a module hold no line breaks. -/
structure Options.Unbroken (o : Options) (overrides : Overrides) : Prop where
  targets : ∀ target ∈ overrides.named.values, Text.Unbroken target
  suffix : Text.Unbroken o.aliasSuffix

/-! ## Names -/

theorem isLineBreak_of_isNameChar {c : Char} (h : Document.Lexer.isNameChar c = true) :
    isLineBreak c = false := by
  have hbreaks : lineBreaks.any Document.Lexer.isNameChar = false := rfl
  by_contra hbreak
  rw [Bool.not_eq_false, isLineBreak, List.contains_iff_mem] at hbreak
  exact Bool.false_ne_true (hbreaks.symm.trans (List.any_eq_true.mpr ⟨c, hbreak, h⟩))

theorem Document.isNameChar_of_isName {s : String} (h : isName s = true) {c : Char}
    (hc : c ∈ s.toList) : Lexer.isNameChar c = true := by
  rw [isName] at h
  cases hs : s.toList with
  | nil =>
    rw [hs] at hc
    cases hc
  | cons first rest =>
    rw [hs, Bool.and_eq_true] at h
    rw [hs] at hc
    rcases List.mem_cons.mp hc with rfl | hc
    · have hstart := h.1
      simp only [Lexer.isNameStart, Lexer.isNameChar, Char.isAlphanum, Bool.or_eq_true] at hstart ⊢
      tauto
    · exact List.all_eq_true.mp h.2 c hc

theorem Document.isLine_of_isName {s : String} (h : isName s = true) : IsLine s where
  ne_empty := by
    rintro rfl
    cases h
  unbroken _ hc := isLineBreak_of_isNameChar (isNameChar_of_isName h hc)

theorem unbroken_snakeCase (s : String) : Text.Unbroken (snakeCase s) := by
  intro c hc
  refine isLineBreak_of_isNameChar ?_
  rcases mem_snakeCase hc with rfl | halpha
  · rfl
  · rw [Document.Lexer.isNameChar, halpha, Bool.true_or]

/-! ## Types -/

theorem unbroken_of_dotted {target module short : String} (h : dotted? target = some (module, short))
    (htarget : Text.Unbroken target) : Text.Unbroken module ∧ Text.Unbroken short := by
  obtain ⟨rfl, -⟩ := dotted?_eq_some_iff.mp h
  simp only [Text.Unbroken, String.toList_append, List.forall_mem_append] at htarget
  exact ⟨htarget.1.1, htarget.2⟩

theorem unbroken_shortName {target : String} (h : Text.Unbroken target) :
    Text.Unbroken (shortName target) := by
  unfold shortName
  split
  · rename_i hdotted
    exact (unbroken_of_dotted hdotted h).2
  · exact h

/-- An expression is written without line breaks if its innermost type is. -/
theorem TypeExpr.unbroken_render {e : TypeExpr} {quoted : Bool} {s : String}
    (hscalar : ∀ n, e.leaf = .scalar n → Text.Unbroken n)
    (hreference : ∀ n, e.leaf = .reference n → Text.Unbroken n) (h : e.render quoted = some s) :
    Text.Unbroken s := by
  induction e generalizing s with
  | scalar n =>
    cases h
    exact hscalar n rfl
  | dynamic =>
    cases h
    decide
  | reference n =>
    have hn := hreference n rfl
    cases quoted with
    | true =>
      cases h
      exact unbroken_append.mpr ⟨unbroken_append.mpr ⟨by decide, hn⟩, by decide⟩
    | false =>
      cases h
      exact hn
  | list item ih | optional item ih =>
    obtain ⟨inner, hinner, rfl⟩ := Option.map_eq_some_iff.mp h
    have hs := ih hscalar hreference hinner
    exact unbroken_append.mpr ⟨unbroken_append.mpr ⟨by decide, hs⟩, by decide⟩
  | blank => cases h

namespace ScalarTable

variable {custom : List String} {overrides : Overrides}

theorem unbroken_of_target? (h : ∀ target ∈ overrides.named.values, Text.Unbroken target)
    {name target : String} (htarget : (ofCustom custom overrides).target? name = some target) :
    Text.Unbroken target := by
  rcases mem_of_target? htarget with hoverride | rfl | hbuiltin
  · exact h target hoverride
  · decide
  · have hunbroken : ∀ target ∈ builtin.map (·.2), Text.Unbroken target := by decide
    exact hunbroken target hbuiltin

/-- The type of a reference is written without line breaks, with or without its outermost layer. -/
theorem unbroken_write (h : ∀ target ∈ overrides.named.values, Text.Unbroken target)
    {r : TypeRef Empty} (hr : Text.Unbroken r.innermost) {e : TypeExpr}
    (he : e.leaf = ((ofCustom custom overrides).typeOf r).expr.leaf) {quoted : Bool}
    {s : String} (hs : e.write quoted = .ok s) : Text.Unbroken s := by
  rw [leaf_typeOf, resolveName] at he
  have hrender : e.render quoted = some s := by
    rw [TypeExpr.write] at hs
    split at hs
    · rename_i text htext
      cases hs
      exact htext
    · cases hs
  cases htarget : (ofCustom custom overrides).target? r.innermost with
  | none =>
    rw [htarget] at he
    refine TypeExpr.unbroken_render (fun n hn => ?_) (fun n hn => ?_) hrender
    · cases he.symm.trans hn
    · cases he.symm.trans hn
      exact hr
  | some target =>
    rw [htarget] at he
    dsimp only at he
    split at he
    · refine TypeExpr.unbroken_render (fun n hn => ?_) (fun n hn => ?_) hrender
      · cases he.symm.trans hn
      · cases he.symm.trans hn
    · refine TypeExpr.unbroken_render (fun n hn => ?_) (fun n hn => ?_) hrender
      · cases he.symm.trans hn
        exact unbroken_shortName (unbroken_of_target? h htarget)
      · cases he.symm.trans hn

end ScalarTable

/-! ## Blocks -/

section

variable {o : Options} {t : ScalarTable} {owner : String}

/-- What the attribute of a field is: its annotation, and the name by which it stands. -/
theorem attributeOf_ok {f : Field Empty} {a : Attribute}
    (h : (o.attributeOf t owner f.widen).result = .ok a) :
    (t.typeOf f.type).expr.write true = .ok a.annotation ∧
      ((o.Reserves f.name ∧ a.name = snakeCase f.name ++ o.aliasSuffix ∧
          a.alias? = some ⟨f.name, !(t.typeOf f.type).expr.isNullable⟩) ∨
        (o.reserved.contains (snakeCase f.name) = .ok false ∧
          isKeyword (snakeCase f.name) = false ∧ a.name = snakeCase f.name ∧ a.alias? = none)) := by
  rw [attributeOf_widen, attribute_eq] at h
  rw [Options.Reserves]
  cases hreserved : o.reserved.contains (snakeCase f.name) with
  | error fault =>
    rw [hreserved] at h
    cases h
  | ok isReserved =>
    rw [hreserved] at h
    cases isReserved with
    | true =>
      obtain ⟨text, htext, rfl⟩ := map_eq_ok_iff.mp h
      exact ⟨htext, .inl ⟨rfl, rfl, rfl⟩⟩
    | false =>
      dsimp only at h
      split at h
      · cases h
      · rename_i hkeyword
        obtain ⟨text, htext, rfl⟩ := map_eq_ok_iff.mp h
        exact ⟨htext, .inr ⟨rfl, by simpa using hkeyword, rfl, rfl⟩⟩

end

theorem isLine_enumLine {value : String} (h : Document.isName value = true) :
    IsLine (enumLine value) := by
  have hvalue := (Document.isLine_of_isName h).unbroken
  refine ⟨by simp [enumLine], ?_⟩
  simp only [enumLine, unbroken_append]
  exact ⟨⟨⟨⟨by decide, hvalue⟩, by decide⟩, hvalue⟩, by decide⟩

theorem isLine_classBody {name : String} {bases body : List String} (hname : Text.Unbroken name)
    (hbases : ∀ b ∈ bases, Text.Unbroken b) (hbody : ∀ l ∈ body, IsLine l) :
    ∀ l ∈ (Block.classBody name bases body).lines, IsLine l := by
  have hjoin : Text.Unbroken (", ".intercalate bases) := unbroken_intercalate (by decide) hbases
  refine List.forall_mem_cons.mpr ⟨⟨by simp, ?_⟩, ?_⟩
  · simp only [unbroken_append]
    exact ⟨⟨⟨⟨by decide, hname⟩, by decide⟩, hjoin⟩, by decide⟩
  · split
    · exact List.forall_mem_singleton.mpr ⟨by decide, by decide⟩
    · exact hbody

section

variable {o : Options} {custom : List String} {overrides : Overrides} {owner : String}
  (ho : o.Unbroken overrides)

include ho

theorem isLine_attribute {f : Field Empty} (hf : Document.ProperField f) {a : Attribute}
    (h : (o.attributeOf (.ofCustom custom overrides) owner f.widen).result = .ok a) :
    IsLine a.line := by
  obtain ⟨hwrite, hname⟩ := attributeOf_ok h
  have hfield := (Document.isLine_of_isName hf.1).unbroken
  have htype := ScalarTable.unbroken_write ho.targets
    (Document.isLine_of_isName hf.2).unbroken rfl hwrite
  have hsnake := unbroken_snakeCase f.name
  have hline : Text.Unbroken a.name ∧ Text.Unbroken ((a.alias?.map Alias.render).getD "") := by
    rcases hname with ⟨-, hname, halias⟩ | ⟨-, -, hname, halias⟩
    · rw [hname, halias]
      refine ⟨unbroken_append.mpr ⟨hsnake, ho.suffix⟩, ?_⟩
      simp only [Option.map_some, Option.getD_some, Alias.render, unbroken_append]
      refine ⟨⟨⟨⟨by decide, ?_⟩, by decide⟩, hfield⟩, by decide⟩
      split <;> decide
    · rw [hname, halias]
      have hempty : Text.Unbroken "" := List.forall_mem_nil _
      exact ⟨hsnake, hempty⟩
  refine ⟨by simp [Attribute.line], ?_⟩
  simp only [Attribute.line, unbroken_append]
  exact ⟨⟨⟨⟨by decide, hline.1⟩, by decide⟩, htype⟩, hline.2⟩

/-- All lines of a block are lines. -/
theorem Writes.isLine {name : String} {content : Content Empty} {b : Block}
    (h : Writes o (.ofCustom custom overrides) name content b) (hname : Document.isName name = true)
    (hnames : ∀ n ∈ content.names, Document.isName n = true) : ∀ l ∈ b.lines, IsLine l := by
  have hline := (Document.isLine_of_isName hname).unbroken
  obtain ⟨hvalues, hfields, hmembers, hinterfaces⟩ := Content.forall_mem_names.mp hnames
  -- interfaces, objects and inputs have blocks of one form
  have hmodel : ∀ attributes : List Attribute, (content.fields.map fun f =>
        (o.attributeOf (.ofCustom custom overrides) name f.widen).result) = attributes.map .ok →
      ∀ l ∈ (Block.classBody name
        (if content.interfaces.isEmpty then ["BaseModel"] else content.interfaces)
        (attributes.map Attribute.line)).lines, IsLine l := by
    intro attributes hattributes
    refine isLine_classBody hline ?_ fun l hl => ?_
    · split
      · decide
      · exact fun i hi => (Document.isLine_of_isName (hinterfaces i hi)).unbroken
    · obtain ⟨a, ha, rfl⟩ := List.mem_map.mp hl
      obtain ⟨f, hf, hresult⟩ := exists_of_map_eq_ok hattributes ha
      exact isLine_attribute ho (hfields f hf) hresult
  cases content with
  | enum values =>
    obtain rfl := h
    refine isLine_classBody hline (by decide) fun l hl => ?_
    obtain ⟨v, hv, rfl⟩ := List.mem_map.mp hl
    exact isLine_enumLine (hvalues v hv)
  | union members =>
    obtain ⟨texts, htexts, rfl⟩ := h
    refine List.forall_mem_singleton.mpr ⟨by simp, ?_⟩
    simp only [unbroken_append]
    refine ⟨⟨⟨hline, by decide⟩, unbroken_intercalate (by decide) fun s hs => ?_⟩, by decide⟩
    obtain ⟨r, hr, hwrite⟩ := exists_of_map_eq_ok htexts hs
    exact ScalarTable.unbroken_write ho.targets (Document.isLine_of_isName (hmembers r hr)).unbroken
      (TypeExpr.leaf_stripOptional _) hwrite
  | interface fields | object fields interfaces | input fields =>
    obtain ⟨attributes, hattributes, rfl⟩ := h
    exact hmodel attributes hattributes
  | other gap => exact gap.elim

end

/-- The text of a block is its lines, if these are lines. -/
theorem Block.text_eq {b : Block} (h : ∀ l ∈ b.lines, IsLine l) : b.text = joinLines b.lines := by
  cases b with
  | unionAlias name members => rfl
  | classBody name bases body => exact trimNewlines_joinLines h

theorem Block.lines_ne_nil (b : Block) : b.lines ≠ [] := by
  cases b <;> exact List.cons_ne_nil _ _

/-! ## Headers -/

theorem Imports.isLine_lines {i : Imports}
    (h : ∀ n ∈ i.names, Text.Unbroken n.module ∧ Text.Unbroken n.name) : ∀ l ∈ i.lines, IsLine l := by
  intro l hl
  rw [lines_eq] at hl
  obtain ⟨⟨module, names⟩, hgroup, rfl⟩ := List.mem_map.mp hl
  obtain ⟨hmodule, hnames, -⟩ := mem_groups.mp hgroup
  have hfeatures : ∀ f : Feature, Text.Unbroken f.imported.name := by
    intro f
    cases f <;> decide
  have hmodule : Text.Unbroken module := by
    rcases mem_modules.mp hmodule with ⟨n, hn, rfl⟩ | hfeature
    · exact (h n hn).1
    · have hunbroken : ∀ m ∈ featureModules, Text.Unbroken m := by decide
      exact hunbroken module hfeature
  have hjoin : Text.Unbroken (", ".intercalate names) := by
    refine unbroken_intercalate (by decide) fun name hname => ?_
    rw [← hnames] at hname
    rcases mem_namesOf.mp hname with ⟨f, -, himported⟩ | hn
    · have hname := hfeatures f
      rwa [himported] at hname
    · exact (h _ hn).2
  refine ⟨by simp [lineOf], ?_⟩
  simp only [lineOf, unbroken_append]
  exact ⟨⟨⟨by decide, hmodule⟩, by decide⟩, hjoin⟩

theorem Imports.lines_ne_nil {i : Imports} {f : Feature} (h : f ∈ i.features) : i.lines ≠ [] := by
  have huses : i.uses f = true := by rw [uses, List.contains_iff_mem.mpr h, Bool.true_or]
  have hname : f.imported.name ∈ i.namesOf f.imported.module := mem_namesOf.mpr (.inl ⟨f, huses, rfl⟩)
  have hgroup : (f.imported.module, i.namesOf f.imported.module) ∈ i.groups :=
    mem_groups.mpr ⟨mem_modules_of_mem_namesOf hname, rfl, List.ne_nil_of_mem hname⟩
  rw [lines_eq]
  exact mt List.map_eq_nil_iff.mp (List.ne_nil_of_mem hgroup)

namespace Session.Covers

variable {s : Session} {o : Options} {custom : List String} {overrides : Overrides}
  {ds : List (Definition Empty)}

theorem isLine_header (H : s.Covers o (.ofCustom custom overrides) ds) (ho : o.Unbroken overrides) :
    ∀ l ∈ s.usage.imports.lines, IsLine l := by
  refine Imports.isLine_lines fun n hn => ?_
  obtain ⟨d, -, r, -, target, htarget, hdotted⟩ := H.mem_names.mp hn
  exact unbroken_of_dotted hdotted (ScalarTable.unbroken_of_target? ho.targets htarget)

end Session.Covers

end SchemaModels
