import SchemaModels.Document.Parser
import SchemaModels.Proofs.Declaration

/-! # The names in a document

A name is a letter or an underscore with letters, digits and underscores after it. The lexer makes
name tokens of nothing else, and whatever part of a document the grammar reads, its names are those of
name tokens. So every name of a document that was read from a text is a name
(`Document.wellNamed_of_parse`). -/

namespace SchemaModels

namespace Document

/-- A letter or an underscore, with letters, digits and underscores after it. -/
def isName (s : String) : Bool :=
  match s.toList with
  | [] => false
  | c :: cs => Lexer.isNameStart c && cs.all Lexer.isNameChar

end Document

/-! ## The names of a node -/

namespace Content

/-- All names in a content. -/
def names (c : Content Empty) : List String :=
  c.values ++ c.fields.map (·.name) ++ c.typeNames ++ c.interfaces

theorem forall_mem_names {P : String → Prop} {c : Content Empty} :
    (∀ n ∈ c.names, P n) ↔ (∀ v ∈ c.values, P v) ∧
      (∀ f ∈ c.fields, P f.name ∧ P f.type.innermost) ∧ (∀ r ∈ c.members, P r.innermost) ∧
      ∀ i ∈ c.interfaces, P i := by
  simp only [names, typeNames, List.forall_mem_append, List.forall_mem_map, forall_and]
  tauto

end Content

namespace Document

/-- All names in a node. -/
def Node.names : Node → List String
  | scalar name | scalarExtension name => [name]
  | definition name content | extension name content => name :: content.names
  | skipped _ => []

/-- All names in a node are names of the schema language. -/
def Node.WellNamed (node : Node) : Prop := ∀ n ∈ node.names, isName n = true

/-- A field with proper names for itself and for its type. -/
def ProperField (f : Field Empty) : Prop := isName f.name = true ∧ isName f.type.innermost = true

/-! ## Tokens -/

/-- A token that is no name, or a proper one. -/
def Token.WellNamed : Token → Prop
  | name value => isName value = true
  | _ => True

namespace TokenStream

/-- All name tokens of a stream are proper names. -/
def WellNamed : TokenStream → Prop
  | cons t rest => t.WellNamed ∧ rest.WellNamed
  | done | broken _ => True

end TokenStream

namespace Lexer

theorem wellNamed_number {cs : List Char} {t : Token} {size : Nat} (h : number cs = .ok (t, size)) :
    t.WellNamed := by
  unfold number at h
  obtain ⟨whole, -, h⟩ := bind_eq_ok_iff.mp h
  obtain ⟨fraction, -, h⟩ := bind_eq_ok_iff.mp h
  obtain ⟨exponent, -, h⟩ := bind_eq_ok_iff.mp h
  rcases ite_eq_iff.mp h with ⟨-, h⟩ | ⟨-, h⟩
  · cases h
  · cases h
    split <;> trivial

theorem wellNamed_afterQuote {cs : List Char} {t : Token} {skip : Nat}
    (h : afterQuote cs = .token t skip) : t.WellNamed := by
  unfold afterQuote at h
  split at h <;> split at h <;> cases h <;> trivial

theorem wellNamed_afterDot {cs : List Char} {t : Token} {skip : Nat}
    (h : afterDot cs = .token t skip) : t.WellNamed := by
  unfold afterDot at h
  split at h
  · cases h
    trivial
  · cases h
  · split at h <;> cases h

/-- A name token starts with its first character and goes on as long as the text does. -/
theorem isName_takeWhile {c : Char} (cs : List Char) (h : isNameStart c = true) :
    isName (String.ofList (c :: cs.takeWhile isNameChar)) = true := by
  rw [isName, String.toList_ofList]
  exact Bool.and_eq_true_iff.mpr ⟨h, List.all_takeWhile⟩

theorem wellNamed_lexeme {c : Char} {cs : List Char} {t : Token} {skip : Nat}
    (h : lexeme c cs = .token t skip) : t.WellNamed := by
  unfold lexeme at h
  split_ifs at h with hblank hcomment hquote hdot hnumber hname hsingle
  · exact wellNamed_afterQuote h
  · exact wellNamed_afterDot h
  · cases hn : number (c :: cs) with
    | ok r =>
      rw [hn] at h
      cases h
      exact wellNamed_number hn
    | error e =>
      rw [hn] at h
      cases h
  · cases h
    exact isName_takeWhile cs hname
  · split at h
    · cases h
      trivial
    · cases h

theorem wellNamed_scan (skip : Nat) (cs : List Char) : (scan skip cs).WellNamed := by
  fun_induction scan skip cs with
  | case1 => trivial
  | case2 skip c cs ih => exact ih
  | case3 c cs skip h ih => exact ih
  | case4 c cs t skip h ih => exact ⟨wellNamed_lexeme h, ih⟩
  | case5 => trivial

end Lexer

/-! ## Steps of the grammar -/

namespace Parser

variable {α β : Type}

/-- From a stream of proper names, a parser reads nothing but what has a property, and it leaves a
stream of proper names. -/
def Yields (p : Parser α) (P : α → Prop) : Prop :=
  ∀ ⦃s a s'⦄, s.WellNamed → p.run s = .ok (a, s') → P a ∧ s'.WellNamed

/-- A parser leaves a stream of proper names. -/
def Keeps (p : Parser α) : Prop := p.Yields fun _ => True

section

variable {p : Parser α} {f : α → Parser β} {P : α → Prop} {Q : β → Prop}

theorem Yields.pure {a : α} (h : P a) : Yields (Pure.pure a) P := by
  intro s b s' hs hrun
  cases hrun
  exact ⟨h, hs⟩

theorem Yields.throw (e : SyntaxError) : Yields (MonadExcept.throw e) P := by
  intro s a s' hs hrun
  cases hrun

theorem Yields.bind (hp : p.Yields P) (hf : ∀ a, P a → (f a).Yields Q) : (p >>= f).Yields Q := by
  intro s b s' hs hrun
  rw [StateT.run_bind] at hrun
  obtain ⟨⟨a, s₁⟩, ha, hb⟩ := bind_eq_ok_iff.mp hrun
  obtain ⟨hPa, hs₁⟩ := hp hs ha
  exact hf a hPa hs₁ hb

theorem Yields.mono {P' : α → Prop} (hp : p.Yields P) (h : ∀ a, P a → P' a) : p.Yields P' :=
  fun _ _ _ hs hrun => (hp hs hrun).imp_left (h _)

theorem Yields.keeps (hp : p.Yields P) : p.Keeps := hp.mono fun _ _ => trivial

/-- The result of a first part may not matter to what follows it. -/
theorem Keeps.bind (hp : p.Keeps) (hf : ∀ a, (f a).Yields Q) : (p >>= f).Yields Q :=
  Yields.bind hp fun a _ => hf a

theorem keeps_get : Keeps get := by
  intro s a s' hs hrun
  cases hrun
  exact ⟨trivial, hs⟩

end

/-! ## Single tokens -/

theorem yields_peek : peek.Yields fun t => ∀ x ∈ t, x.WellNamed := by
  intro s t s' hs hrun
  cases s with
  | cons x rest =>
    cases hrun
    exact ⟨fun y hy => Option.some.inj hy ▸ hs.1, hs⟩
  | done | broken cause =>
    cases hrun
    exact ⟨nofun, hs⟩

theorem keeps_peek : peek.Keeps := Yields.keeps yields_peek

theorem keeps_advance : advance.Keeps := by
  intro s u s' hs hrun
  cases s with
  | cons x rest =>
    cases rest with
    | broken cause => cases hrun
    | done | cons =>
      cases hrun
      exact ⟨trivial, hs.2⟩
  | done | broken cause =>
    cases hrun
    exact ⟨trivial, hs⟩

theorem keeps_lookahead : lookahead.Keeps := by
  intro s t s' hs hrun
  cases s with
  | cons x rest =>
    cases rest with
    | broken cause => cases hrun
    | done | cons =>
      cases hrun
      exact ⟨trivial, hs⟩
  | done | broken cause =>
    cases hrun
    exact ⟨trivial, hs⟩

theorem yields_unexpected {P : α → Prop} : unexpected.Yields P :=
  Keeps.bind keeps_peek fun _ => .throw _

theorem keeps_isAt (p : Punctuator) : (isAt p).Keeps := Keeps.bind keeps_peek fun _ => .pure trivial

theorem keeps_optional (p : Punctuator) : (optional p).Keeps := by
  refine (keeps_isAt p).bind fun found => ?_
  cases found with
  | true => exact Keeps.bind keeps_advance fun _ => .pure trivial
  | false => exact .pure trivial

theorem keeps_expect (p : Punctuator) : (expect p).Keeps := by
  refine (keeps_optional p).bind fun found => ?_
  cases found with
  | true => exact .pure trivial
  | false => exact Keeps.bind keeps_peek fun _ => .throw _

theorem yields_name : name.Yields fun n => isName n = true := by
  refine Yields.bind yields_peek fun t ht => ?_
  split
  · rename_i value
    exact Keeps.bind keeps_advance fun _ => .pure (ht _ rfl)
  · exact .throw _

theorem keeps_name : name.Keeps := Yields.keeps yields_name

theorem keeps_optionalKeyword (word : String) : (optionalKeyword word).Keeps := by
  refine Keeps.bind keeps_peek fun t => ?_
  split
  · exact Keeps.bind keeps_advance fun _ => .pure trivial
  · exact .pure trivial

theorem keeps_keyword (word : String) : (keyword word).Keeps := by
  refine (keeps_optionalKeyword word).bind fun found => ?_
  cases found with
  | true => exact .pure trivial
  | false => exact Keeps.bind keeps_peek fun _ => .throw _

theorem keeps_description : description.Keeps := by
  refine Keeps.bind keeps_peek fun t => ?_
  split
  · exact keeps_advance
  · exact .pure trivial

/-! ## Lists -/

section

variable {item : Parser α} {P : α → Prop} (hitem : item.Yields P)

include hitem

theorem yields_itemsThen (right : Punctuator) (bound : Nat) :
    (itemsThen item right bound).Yields fun l => ∀ a ∈ l, P a := by
  induction bound with
  | zero => exact yields_unexpected
  | succ bound ih =>
    refine hitem.bind fun a ha => (keeps_optional right).bind fun closed => ?_
    cases closed with
    | true => exact .pure fun b hb => List.mem_singleton.mp hb ▸ ha
    | false => exact ih.bind fun l hl => .pure (List.forall_mem_cons.mpr ⟨ha, hl⟩)

theorem yields_many (left right : Punctuator) : (many left item right).Yields fun l => ∀ a ∈ l, P a :=
  (keeps_expect left).bind fun _ => Keeps.bind keeps_get fun s =>
    yields_itemsThen hitem right (s.length + 1)

theorem yields_any (left right : Punctuator) : (any left item right).Yields fun l => ∀ a ∈ l, P a := by
  refine (keeps_expect left).bind fun _ => (keeps_optional right).bind fun closed => ?_
  cases closed with
  | true => exact .pure nofun
  | false => exact Keeps.bind keeps_get fun s => yields_itemsThen hitem right (s.length + 1)

theorem yields_optionalMany (left right : Punctuator) :
    (optionalMany left item right).Yields fun l => ∀ a ∈ l, P a := by
  refine (keeps_isAt left).bind fun found => ?_
  cases found with
  | true => exact yields_many hitem left right
  | false => exact .pure nofun

theorem yields_furtherItems (sep : Punctuator) (bound : Nat) :
    (furtherItems sep item bound).Yields fun l => ∀ a ∈ l, P a := by
  induction bound with
  | zero => exact .pure nofun
  | succ bound ih =>
    refine (keeps_optional sep).bind fun found => ?_
    cases found with
    | true =>
      exact hitem.bind fun a ha => ih.bind fun l hl => .pure (List.forall_mem_cons.mpr ⟨ha, hl⟩)
    | false => exact .pure nofun

theorem yields_delimited (sep : Punctuator) : (delimited sep item).Yields fun l => ∀ a ∈ l, P a := by
  refine (keeps_optional sep).bind fun _ => hitem.bind fun a ha => Keeps.bind keeps_get fun s => ?_
  exact (yields_furtherItems hitem sep s.length).bind fun l hl =>
    .pure (List.forall_mem_cons.mpr ⟨ha, hl⟩)

theorem keeps_itemsWhile (first : Punctuator) (bound : Nat) : (itemsWhile first item bound).Keeps := by
  induction bound with
  | zero => exact .pure trivial
  | succ bound ih =>
    refine (keeps_isAt first).bind fun found => ?_
    cases found with
    | true => exact hitem.keeps.bind fun _ => ih.bind fun _ => .pure trivial
    | false => exact .pure trivial

end

/-! ## Types and values -/

theorem yields_typeWith {item : Parser (TypeRef Empty)}
    (hitem : item.Yields fun t => isName t.innermost = true) :
    (typeWith item).Yields fun t => isName t.innermost = true := by
  -- a mark after a type leaves its innermost name as it is
  have hmark : ∀ t : TypeRef Empty, isName t.innermost = true →
      (optional .bang >>= fun found => if found then pure (.nonNull t) else pure t : Parser _).Yields
        fun t => isName t.innermost = true := by
    intro t ht
    refine (keeps_optional .bang).bind fun found => ?_
    cases found with
    | true => exact .pure ht
    | false => exact .pure ht
  refine (keeps_optional .bracketL).bind fun found => ?_
  cases found with
  | true => exact hitem.bind fun t ht => (keeps_expect .bracketR).bind fun _ => hmark (.list t) ht
  | false =>
    have hnamed : (TypeRef.named <$> name : Parser (TypeRef Empty)).Yields
        fun t => isName t.innermost = true := by
      rw [map_eq_pure_bind]
      exact Yields.bind yields_name fun n hn => .pure hn
    exact hnamed.bind hmark

theorem yields_typeRefWithin (room : Nat) :
    (typeRefWithin room).Yields fun t => isName t.innermost = true := by
  induction room with
  | zero => exact yields_typeWith (.throw _)
  | succ room ih => exact yields_typeWith ih

theorem yields_typeRef : typeRef.Yields fun t => isName t.innermost = true :=
  yields_typeRefWithin room

theorem keeps_variableUse (constant : Bool) : (variableUse constant).Keeps := by
  refine Keeps.bind keeps_peek fun dollar => (keeps_expect .dollar).bind fun _ => ?_
  cases constant with
  | true =>
    refine Keeps.bind keeps_peek fun t => ?_
    split
    · exact .throw _
    · exact .throw _
  | false => exact Keeps.bind keeps_name fun _ => .pure trivial

theorem keeps_simpleValue (constant : Bool) : (simpleValue constant).Keeps := by
  refine Keeps.bind keeps_peek fun t => ?_
  split
  · exact keeps_variableUse constant
  · exact yields_unexpected
  · exact yields_unexpected
  · exact keeps_advance

theorem keeps_labelled {item : Parser α} (hitem : item.Keeps) : (labelled item).Keeps :=
  Keeps.bind keeps_name fun _ => (keeps_expect .colon).bind fun _ => hitem

theorem keeps_valueWithin (constant : Bool) (room : Nat) : (valueWithin constant room).Keeps := by
  induction room with
  | zero =>
    refine (keeps_isAt .bracketL).bind fun isList => ?_
    cases isList with
    | true => exact .throw _
    | false =>
      refine (keeps_isAt .braceL).bind fun isObject => ?_
      cases isObject with
      | true => exact .throw _
      | false => exact keeps_simpleValue constant
  | succ room ih =>
    refine (keeps_isAt .bracketL).bind fun isList => ?_
    cases isList with
    | true => exact (yields_any ih .bracketL .bracketR).keeps.bind fun _ => .pure trivial
    | false =>
      refine (keeps_isAt .braceL).bind fun isObject => ?_
      cases isObject with
      | true => exact (yields_any (keeps_labelled ih) .braceL .braceR).keeps.bind fun _ => .pure trivial
      | false => exact keeps_simpleValue constant

theorem keeps_arguments (constant : Bool) (room : Nat) : (arguments constant room).Keeps :=
  (yields_optionalMany (keeps_labelled (keeps_valueWithin constant room)) .parenL .parenR).keeps.bind
    fun _ => .pure trivial

theorem keeps_directive (constant : Bool) (room : Nat) : (directive constant room).Keeps :=
  (keeps_expect .at).bind fun _ => Keeps.bind keeps_name fun _ => keeps_arguments constant room

theorem keeps_directivesWithin (constant : Bool) (room : Nat) :
    (directivesWithin constant room).Keeps := by
  refine (keeps_isAt .at).bind fun found => ?_
  cases found with
  | true =>
    exact Keeps.bind keeps_get fun s =>
      (keeps_itemsWhile (keeps_directive constant room) .at s.length).bind fun _ => .pure trivial
  | false => exact .pure trivial

theorem keeps_directives : directives.Keeps := keeps_directivesWithin true room

/-! ## Parts of type definitions -/

theorem keeps_defaultValue : defaultValue.Keeps := by
  refine (keeps_optional .equals).bind fun found => ?_
  cases found with
  | true => exact keeps_valueWithin true room
  | false => exact .pure trivial

theorem yields_inputValue : inputValue.Yields ProperField := by
  refine Keeps.bind keeps_description fun _ => Yields.bind yields_name fun n hn => ?_
  refine (keeps_expect .colon).bind fun _ => Yields.bind yields_typeRef fun t ht => ?_
  exact Keeps.bind keeps_defaultValue fun _ => Keeps.bind keeps_directives fun _ => .pure ⟨hn, ht⟩

theorem yields_field : field.Yields ProperField := by
  refine Keeps.bind keeps_description fun _ => Yields.bind yields_name fun n hn => ?_
  refine (yields_optionalMany yields_inputValue .parenL .parenR).keeps.bind fun _ => ?_
  refine (keeps_expect .colon).bind fun _ => Yields.bind yields_typeRef fun t ht => ?_
  exact Keeps.bind keeps_directives fun _ => .pure ⟨hn, ht⟩

theorem yields_enumValue : enumValue.Yields fun n => isName n = true := by
  have hname : (name >>= fun n => directives >>= fun _ => pure n : Parser String).Yields
      fun n => isName n = true :=
    Yields.bind yields_name fun n hn => Keeps.bind keeps_directives fun _ => .pure hn
  refine Keeps.bind keeps_description fun _ => Keeps.bind keeps_peek fun t => ?_
  cases t with
  | none => exact hname
  | some t =>
    dsimp only
    split
    · exact Yields.bind (P := fun _ => True) (.throw _) fun _ _ => hname
    · exact hname

theorem yields_interfaces : interfaces.Yields fun l => ∀ n ∈ l, isName n = true := by
  refine (keeps_optionalKeyword "implements").bind fun found => ?_
  cases found with
  | true => exact yields_delimited yields_name .amp
  | false => exact .pure nofun

theorem yields_fields : fields.Yields fun l => ∀ f ∈ l, ProperField f :=
  yields_optionalMany yields_field .braceL .braceR

theorem keeps_operationType : operationType.Keeps := by
  refine Keeps.bind keeps_peek fun found => Keeps.bind keeps_name fun n => ?_
  cases operationTypes.contains n with
  | true => exact .pure trivial
  | false => exact .throw _

theorem keeps_rootType : rootType.Keeps :=
  Keeps.bind keeps_operationType fun _ => (keeps_expect .colon).bind fun _ =>
    Keeps.bind keeps_name fun _ => .pure trivial

theorem keeps_location : location.Keeps := by
  refine Keeps.bind keeps_peek fun found => Keeps.bind keeps_name fun n => ?_
  cases locations.contains n with
  | true => exact .pure trivial
  | false => exact .throw _

/-! ## Type definitions and their extensions -/

/-- All names in the body of a definition are names of the schema language. -/
def Body.WellNamed (b : Body) : Prop := ∀ n ∈ b.name :: b.content.names, isName n = true

theorem Body.wellNamed_iff {b : Body} :
    b.WellNamed ↔ isName b.name = true ∧ (∀ v ∈ b.content.values, isName v = true) ∧
      (∀ f ∈ b.content.fields, ProperField f) ∧
      (∀ r ∈ b.content.members, isName r.innermost = true) ∧
      ∀ i ∈ b.content.interfaces, isName i = true := by
  rw [WellNamed, List.forall_mem_cons, Content.forall_mem_names]
  rfl

theorem yields_objectBody : objectBody.Yields Body.WellNamed := by
  refine Yields.bind yields_name fun n hn => Yields.bind yields_interfaces fun is his => ?_
  refine Keeps.bind keeps_directives fun _ => Yields.bind yields_fields fun fs hfs => .pure ?_
  exact Body.wellNamed_iff.mpr ⟨hn, nofun, hfs, nofun, his⟩

theorem yields_interfaceBody : interfaceBody.Yields Body.WellNamed := by
  refine Yields.bind yields_name fun n hn => Keeps.bind (Yields.keeps yields_interfaces) fun _ => ?_
  refine Keeps.bind keeps_directives fun _ => Yields.bind yields_fields fun fs hfs => .pure ?_
  exact Body.wellNamed_iff.mpr ⟨hn, nofun, hfs, nofun, nofun⟩

theorem yields_unionBody : unionBody.Yields Body.WellNamed := by
  refine Yields.bind yields_name fun n hn => Keeps.bind keeps_directives fun _ => ?_
  refine (keeps_optional .equals).bind fun found => ?_
  have hmembers : ∀ {ms : List String} (hasPart : Bool), (∀ m ∈ ms, isName m = true) →
      Body.WellNamed ⟨n, .union (ms.map .named), hasPart⟩ := by
    intro ms hasPart hms
    refine Body.wellNamed_iff.mpr ⟨hn, nofun, nofun, fun r hr => ?_, nofun⟩
    obtain ⟨m, hm, rfl⟩ := List.mem_map.mp hr
    exact hms m hm
  cases found with
  | true => exact (yields_delimited yields_name .pipe).bind fun ms hms => .pure (hmembers _ hms)
  | false => exact Yields.bind (P := (· = [])) (.pure rfl) fun ms hms => .pure (hmembers _ (hms ▸ nofun))

theorem yields_enumBody : enumBody.Yields Body.WellNamed := by
  refine Yields.bind yields_name fun n hn => Keeps.bind keeps_directives fun _ => ?_
  refine (yields_optionalMany yields_enumValue .braceL .braceR).bind fun vs hvs => .pure ?_
  exact Body.wellNamed_iff.mpr ⟨hn, hvs, nofun, nofun, nofun⟩

theorem yields_inputBody : inputBody.Yields Body.WellNamed := by
  refine Yields.bind yields_name fun n hn => Keeps.bind keeps_directives fun _ => ?_
  refine (yields_optionalMany yields_inputValue .braceL .braceR).bind fun fs hfs => .pure ?_
  exact Body.wellNamed_iff.mpr ⟨hn, nofun, hfs, nofun, nofun⟩

theorem yields_of_body? {word : String} {p : Parser Body} (h : body? word = some p) :
    p.Yields Body.WellNamed := by
  unfold body? at h
  split at h
  · exact Option.some.inj h ▸ yields_objectBody
  · exact Option.some.inj h ▸ yields_interfaceBody
  · exact Option.some.inj h ▸ yields_unionBody
  · exact Option.some.inj h ▸ yields_enumBody
  · exact Option.some.inj h ▸ yields_inputBody
  · cases h

theorem yields_schemaDefinition : schemaDefinition.Yields Node.WellNamed :=
  Keeps.bind keeps_directives fun _ => (yields_many keeps_rootType .braceL .braceR).keeps.bind fun _ =>
    .pure nofun

theorem yields_scalarDefinition : scalarDefinition.Yields Node.WellNamed :=
  Yields.bind yields_name fun _ hn => Keeps.bind keeps_directives fun _ =>
    .pure (List.forall_mem_singleton.mpr hn)

theorem yields_directiveDefinition : directiveDefinition.Yields Node.WellNamed := by
  refine (keeps_expect .at).bind fun _ => Keeps.bind keeps_name fun _ => ?_
  refine (yields_optionalMany yields_inputValue .parenL .parenR).keeps.bind fun _ => ?_
  refine Keeps.bind keeps_directives fun _ => (keeps_optionalKeyword "repeatable").bind fun _ => ?_
  refine (keeps_keyword "on").bind fun _ => ?_
  exact (yields_delimited keeps_location .pipe).keeps.bind fun _ => .pure nofun

theorem yields_schemaExtension : schemaExtension.Yields Node.WellNamed := by
  refine Keeps.bind keeps_directives fun ds => ?_
  refine (yields_optionalMany keeps_rootType .braceL .braceR).keeps.bind fun types => ?_
  split
  · exact .pure nofun
  · exact yields_unexpected

theorem yields_scalarExtension : scalarExtension.Yields Node.WellNamed := by
  refine Yields.bind yields_name fun n hn => Keeps.bind keeps_directives fun found => ?_
  cases found with
  | true => exact .pure (List.forall_mem_singleton.mpr hn)
  | false => exact yields_unexpected

theorem yields_directiveExtension : directiveExtension.Yields Node.WellNamed := by
  refine (keeps_expect .at).bind fun _ => Keeps.bind keeps_name fun _ => ?_
  refine Keeps.bind keeps_directives fun found => ?_
  cases found with
  | true => exact .pure nofun
  | false => exact yields_unexpected

/-! ## Operations and fragments -/

theorem keeps_fragmentName : fragmentName.Keeps := by
  have hname : (name >>= fun _ => pure () : Parser Unit).Keeps :=
    Keeps.bind keeps_name fun _ => .pure trivial
  refine Keeps.bind keeps_peek fun t => ?_
  dsimp only
  split
  · exact Yields.bind yields_unexpected (P := fun _ => True) fun _ _ => hname
  · exact hname

theorem keeps_spread (room : Nat) {selections : Parser Unit} (h : selections.Keeps) :
    (spread room selections).Keeps := by
  have hdirectives := keeps_directivesWithin false room
  refine (keeps_optionalKeyword "on").bind fun found => ?_
  cases found with
  | true => exact Keeps.bind keeps_name fun _ => hdirectives.bind fun _ => h
  | false =>
    refine Keeps.bind keeps_peek fun t => ?_
    split
    · exact Keeps.bind keeps_fragmentName fun _ => hdirectives.bind fun _ => .pure trivial
    · exact hdirectives.bind fun _ => h

theorem keeps_selection (room : Nat) {selections : Parser Unit} (h : selections.Keeps) :
    (selection room selections).Keeps := by
  have hrest : (do
      arguments false room
      let _ ← directivesWithin false room
      if ← isAt .braceL then selections : Parser Unit).Keeps := by
    refine (keeps_arguments false room).bind fun _ => ?_
    refine (keeps_directivesWithin false room).bind fun _ => (keeps_isAt .braceL).bind fun found => ?_
    cases found with
    | true => exact h
    | false => exact .pure trivial
  refine (keeps_optional .spread).bind fun found => ?_
  cases found with
  | true => exact keeps_spread room h
  | false =>
    refine Keeps.bind keeps_name fun _ => (keeps_optional .colon).bind fun renamed => ?_
    cases renamed with
    | true => exact Keeps.bind keeps_name fun _ => hrest
    | false => exact hrest

theorem keeps_selectionsWithin (room : Nat) : (selectionsWithin room).Keeps := by
  induction room with
  | zero => exact .throw _
  | succ room ih =>
    exact (yields_any (keeps_selection room ih) .braceL .braceR).keeps.bind fun _ => .pure trivial

theorem keeps_variableDefinition : variableDefinition.Keeps := by
  refine Keeps.bind keeps_description fun _ => (keeps_variableUse false).bind fun _ => ?_
  refine (keeps_expect .colon).bind fun _ => Keeps.bind (Yields.keeps yields_typeRef) fun _ => ?_
  exact Keeps.bind keeps_defaultValue fun _ => Keeps.bind keeps_directives fun _ => .pure trivial

theorem yields_operation : operation.Yields Node.WellNamed := by
  have hrest : (do
      let _ ← optionalMany .parenL variableDefinition .parenR
      let _ ← directivesWithin false room
      selections
      return .skipped .operation : Parser Node).Yields Node.WellNamed := by
    refine (yields_optionalMany keeps_variableDefinition .parenL .parenR).keeps.bind fun _ => ?_
    refine (keeps_directivesWithin false room).bind fun _ => ?_
    exact (keeps_selectionsWithin room).bind fun _ => .pure nofun
  refine Keeps.bind keeps_peek fun t => ?_
  dsimp only
  split
  · exact Keeps.bind keeps_name fun _ => hrest
  · exact hrest

theorem yields_fragment : fragment.Yields Node.WellNamed := by
  refine Keeps.bind keeps_fragmentName fun _ => (keeps_keyword "on").bind fun _ => ?_
  refine Keeps.bind keeps_name fun _ => ?_
  refine (keeps_directivesWithin false room).bind fun _ => ?_
  exact (keeps_selectionsWithin room).bind fun _ => .pure nofun

/-! ## Documents -/

theorem yields_of_definition? {word : String} {p : Parser Node} (h : definition? word = some p) :
    p.Yields Node.WellNamed := by
  unfold definition? at h
  split at h
  · exact Option.some.inj h ▸ yields_schemaDefinition
  · exact Option.some.inj h ▸ yields_scalarDefinition
  · exact Option.some.inj h ▸ yields_directiveDefinition
  · exact Option.some.inj h ▸ yields_operation
  · exact Option.some.inj h ▸ yields_operation
  · exact Option.some.inj h ▸ yields_operation
  · exact Option.some.inj h ▸ yields_fragment
  · obtain ⟨b, hb, rfl⟩ := Option.map_eq_some_iff.mp h
    exact (yields_of_body? hb).bind fun _ hbody => .pure hbody

theorem yields_of_extension? {word : String} {p : Parser Node} (h : extension? word = some p) :
    p.Yields Node.WellNamed := by
  unfold extension? at h
  split at h
  · exact Option.some.inj h ▸ yields_schemaExtension
  · exact Option.some.inj h ▸ yields_scalarExtension
  · exact Option.some.inj h ▸ yields_directiveExtension
  · obtain ⟨b, hb, rfl⟩ := Option.map_eq_some_iff.mp h
    refine (yields_of_body? hb).bind fun body hbody => ?_
    cases body.hasPart with
    | true => exact .pure hbody
    | false => exact yields_unexpected

theorem yields_extension : extension.Yields Node.WellNamed := by
  refine Keeps.bind keeps_lookahead fun t => ?_
  split
  · rename_i word
    cases h : extension? word with
    | some p =>
      exact Keeps.bind keeps_advance fun _ => Keeps.bind keeps_advance fun _ => yields_of_extension? h
    | none => exact .throw _
  · exact .throw _

theorem yields_keywordDefinition (described : Bool) (found : Option Token) :
    (keywordDefinition described found).Yields Node.WellNamed := by
  unfold keywordDefinition
  split
  · rename_i word
    cases h : definition? word with
    | some p =>
      exact Keeps.bind keeps_description fun _ => Keeps.bind keeps_advance fun _ =>
        yields_of_definition? h
    | none =>
      cases described with
      | true => exact .throw _
      | false =>
        dsimp only
        split
        · contradiction
        · split
          · exact yields_extension
          · exact .throw _
  · exact .throw _

theorem yields_node : node.Yields Node.WellNamed := by
  refine (keeps_isAt .braceL).bind fun isQuery => ?_
  cases isQuery with
  | true => exact (keeps_selectionsWithin room).bind fun _ => .pure nofun
  | false =>
    refine Keeps.bind keeps_peek fun first => ?_
    split
    · refine Keeps.bind keeps_lookahead fun next => ?_
      dsimp only
      split
      · exact Yields.bind (P := fun _ => True) (.throw _) fun _ _ => yields_keywordDefinition true next
      · exact yields_keywordDefinition true next
    · exact yields_keywordDefinition false first

theorem yields_nodes (bound : Nat) : (nodes bound).Yields fun l => ∀ node ∈ l, node.WellNamed := by
  induction bound with
  | zero => exact yields_unexpected
  | succ bound ih =>
    refine Yields.bind yields_node fun node hnode => Keeps.bind keeps_peek fun next => ?_
    cases next with
    | none => exact .pure (List.forall_mem_singleton.mpr hnode)
    | some t => exact ih.bind fun l hl => .pure (List.forall_mem_cons.mpr ⟨hnode, hl⟩)

theorem yields_document : document.Yields fun doc => ∀ node ∈ doc.nodes, node.WellNamed := by
  have hnodes : (do return ⟨← nodes ((← get).length + 1)⟩ : Parser Document).Yields
      fun doc => ∀ node ∈ doc.nodes, node.WellNamed :=
    Keeps.bind keeps_get fun s => (yields_nodes (s.length + 1)).bind fun l hl => .pure hl
  refine Keeps.bind keeps_get fun s => ?_
  cases s with
  | broken cause => exact Yields.bind (P := fun _ => True) (.throw _) fun _ _ => hnodes
  | done | cons => exact hnodes

end Parser

/-- All names of a document are names of the schema language. -/
def WellNamed (doc : Document) : Prop := ∀ node ∈ doc.nodes, node.WellNamed

/-- A document that was read from a text has nothing but proper names. -/
theorem wellNamed_of_parse {text : String} {doc : Document} (h : parse text = .ok doc) :
    doc.WellNamed := by
  obtain ⟨⟨doc, rest⟩, hrun, rfl⟩ := map_eq_ok_iff.mp h
  exact (Parser.yields_document (Lexer.wellNamed_scan 0 text.toList) hrun).1

end Document

end SchemaModels
