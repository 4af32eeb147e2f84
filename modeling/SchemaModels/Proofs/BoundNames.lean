import SchemaModels.Proofs.ModuleText

/-! # The names that a module binds

Every block binds the name of its class or alias, and a class those of its attributes or members. They
can be read off the text (`bodyNames`). By the default settings a field is written in snake case, so two
fields of a class have the same attribute exactly if their names have the same words, and an attribute
can be bound exactly if a letter comes first in the name of its field, underscores apart. -/

namespace SchemaModels

open Text

/-! ## Names in a text -/

namespace Text

/-- A name that can be bound: letters, digits and underscores, no digit first, and no keyword. -/
def isBindable (s : String) : Bool := Document.isName s && !isKeyword s

/-- Whether the first character that is no underscore is a letter. -/
def startsWithLetter (s : String) : Bool :=
  startsWith Char.isAlpha (s.toList.dropWhile (· == '_'))

/-- The text before the first character of a class. -/
def before (p : Char → Bool) (s : String) : String :=
  String.ofList (s.toList.takeWhile fun c => !p c)

theorem before_append {p : Char → Bool} {s t : String} {c : Char} {cs : List Char}
    (hs : ∀ x ∈ s.toList, p x = false) (ht : t.toList = c :: cs) (hc : p c = true) :
    before p (s ++ t) = s := by
  have htake : (s.toList ++ t.toList).takeWhile (fun c => !p c) = s.toList := by
    rw [List.takeWhile_append_of_pos (by simpa using hs), ht,
      List.takeWhile_cons_of_neg (by simpa using hc), List.append_nil]
  rw [before, String.toList_append, htake, String.ofList_toList]

end Text

/-- The name that the first line of a block binds. A class has a colon at the end of its line. -/
def headName (line : String) : String :=
  if line.toList.getLast? = some ':' then before (· == '(') (String.ofList (line.toList.drop 6))
  else before (· == ' ') line

/-- The name that a line in a class binds, if it binds one. -/
def memberName? (line : String) : Option String :=
  if line = "    pass" then none
  else some (before (fun c => c == ':' || c == ' ') (String.ofList (line.toList.drop 4)))

/-- The names that the lines of a block bind: that of the block itself, then those inside it. -/
def boundNames : List String → List String
  | [] => []
  | head :: body => headName head :: body.filterMap memberName?

/-- The names that the body of a module binds. -/
def bodyNames (body : String) : List String :=
  if body = "" then [] else (splitAt "\n\n" body).flatMap fun block => boundNames (splitAt "\n" block)

/-- A body of one block binds the names of its lines. -/
theorem bodyNames_joinLines {lines : List String} (hne : lines ≠ []) (h : ∀ l ∈ lines, IsLine l) :
    bodyNames (joinLines lines) = boundNames lines := by
  have hblocks : splitAt "\n\n" (joinLines lines) = [joinLines lines] := by
    have hpasses : ∀ p ∈ [joinLines lines], Passes "\n\n".toList p.toList :=
      List.forall_mem_singleton.mpr (passes_joinLines (n := 2) (by decide) h)
    have hsplit := splitAt_intercalate (by decide) (List.cons_ne_nil _ []) hpasses
    rwa [String.intercalate_singleton] at hsplit
  have hlines : splitAt "\n" (joinLines lines) = lines :=
    splitAt_newline hne fun l hl => (h l hl).unbroken
  rw [bodyNames, if_neg (joinLines_ne_empty hne h), hblocks, List.flatMap_singleton, hlines]

/-! ## Names of blocks -/

section

variable {name : String} (hname : ∀ c ∈ name.toList, Document.Lexer.isNameChar c = true)

include hname

theorem not_mem_of_isNameChar {c : Char} (hc : Document.Lexer.isNameChar c = false) :
    ∀ x ∈ name.toList, (x == c) = false := by
  intro x hx
  rw [beq_eq_false_iff_ne]
  rintro rfl
  exact Bool.false_ne_true (hc.symm.trans (hname x hx))

theorem headName_class (bases : String) :
    headName ("class " ++ name ++ "(" ++ bases ++ "):") = name := by
  have hchars : ("class " ++ name ++ "(" ++ bases ++ "):").toList =
      "class ".toList ++ (name ++ ("(" ++ (bases ++ "):"))).toList := by
    simp only [String.toList_append, List.append_assoc]
  have hlast : ("class " ++ name ++ "(" ++ bases ++ "):").toList.getLast? = some ':' := by
    rw [String.toList_append, List.getLast?_append_of_ne_nil _ (by decide)]
    rfl
  have hdrop : String.ofList (("class " ++ name ++ "(" ++ bases ++ "):").toList.drop 6) =
      name ++ ("(" ++ (bases ++ "):")) := by
    rw [hchars]
    exact String.ofList_toList
  rw [headName, if_pos hlast, hdrop]
  exact before_append (not_mem_of_isNameChar hname (by decide)) (String.toList_append ..) rfl

theorem headName_alias (members : String) :
    headName (name ++ " = Union[" ++ members ++ "]") = name := by
  have hlast : (name ++ " = Union[" ++ members ++ "]").toList.getLast? ≠ some ':' := by
    rw [String.toList_append, List.getLast?_append_of_ne_nil _ (by decide)]
    decide
  rw [headName, if_neg hlast, String.append_assoc, String.append_assoc]
  exact before_append (not_mem_of_isNameChar hname (by decide)) (String.toList_append ..) rfl

theorem memberName?_of_mark (mark : Char) {rest : String} {cs : List Char}
    (hmark : (mark == ':' || mark == ' ') = true) (hrest : rest.toList = mark :: cs) :
    memberName? ("    " ++ name ++ rest) = some name := by
  have hchars : ("    " ++ name ++ rest).toList = "    ".toList ++ (name ++ rest).toList := by
    rw [String.append_assoc, String.toList_append]
  have hpass : "    " ++ name ++ rest ≠ "    pass" := by
    intro heq
    have hmem : mark ∈ (name ++ rest).toList := by
      rw [String.toList_append, hrest]
      simp
    have hdrop : (name ++ rest).toList = "pass".toList := by
      have hlines := congrArg (fun s : String => s.toList.drop 4) heq
      rw [hchars] at hlines
      exact hlines
    have hpass : "pass".toList.any (fun c => c == ':' || c == ' ') = false := rfl
    rw [hdrop] at hmem
    exact Bool.false_ne_true (hpass.symm.trans (List.any_eq_true.mpr ⟨mark, hmem, hmark⟩))
  have hdrop : String.ofList (("    " ++ name ++ rest).toList.drop 4) = name ++ rest := by
    rw [hchars]
    exact String.ofList_toList
  rw [memberName?, if_neg hpass, hdrop, before_append ?_ hrest hmark]
  intro x hx
  rw [not_mem_of_isNameChar hname (by decide) x hx, not_mem_of_isNameChar hname (by decide) x hx]
  rfl

end

theorem memberName?_enumLine {value : String} (h : Document.isName value = true) :
    memberName? (enumLine value) = some value := by
  have hchars : enumLine value = "    " ++ value ++ (" = '" ++ (value ++ "'")) := by
    simp only [enumLine, String.append_assoc]
  rw [hchars]
  exact memberName?_of_mark (fun c hc => Document.isNameChar_of_isName h hc) ' ' rfl
    (String.toList_append ..)

theorem memberName?_line {a : Attribute}
    (h : ∀ c ∈ a.name.toList, Document.Lexer.isNameChar c = true) : memberName? a.line = some a.name := by
  have hchars : a.line =
      "    " ++ a.name ++ (": " ++ (a.annotation ++ (a.alias?.map Alias.render).getD "")) := by
    simp only [Attribute.line, String.append_assoc]
  rw [hchars]
  exact memberName?_of_mark h ':' rfl (String.toList_append ..)

theorem boundNames_classBody {name : String} {bases body names : List String}
    (hname : ∀ c ∈ name.toList, Document.Lexer.isNameChar c = true)
    (hbody : body.map memberName? = names.map some) :
    boundNames (Block.classBody name bases body).lines = name :: names := by
  have hmembers : (if body.isEmpty then ["    pass"] else body).filterMap memberName? = names := by
    cases body with
    | nil =>
      cases names with
      | nil => rfl
      | cons n names => cases hbody
    | cons l body =>
      have hnames := congrArg (List.filterMap id) hbody
      rw [List.filterMap_map, List.filterMap_map] at hnames
      exact hnames.trans (List.filterMap_some ..)
  rw [Block.lines, boundNames, headName_class hname, hmembers]

/-! ## Attributes by the default settings -/

/-- The attribute for a field of this name, by the default settings. -/
def attributeName (name : String) : String :=
  if snakeCase name = "copy" then "copy_" else snakeCase name

theorem isNameChar_snakeCase {name : String} {c : Char} (h : c ∈ (snakeCase name).toList) :
    Document.Lexer.isNameChar c = true := by
  rcases mem_snakeCase h with rfl | halpha
  · rfl
  · rw [Document.Lexer.isNameChar, halpha, Bool.true_or]

theorem isNameChar_attributeName {name : String} {c : Char} (h : c ∈ (attributeName name).toList) :
    Document.Lexer.isNameChar c = true := by
  unfold attributeName at h
  split at h
  · have hcopy : "copy_".toList.all Document.Lexer.isNameChar = true := rfl
    exact List.all_eq_true.mp hcopy c h
  · exact isNameChar_snakeCase h

/-- Two fields have one attribute exactly if their names have the same words. -/
theorem attributeName_eq_iff {name name' : String} :
    attributeName name = attributeName name' ↔ lowerWords name = lowerWords name' := by
  -- snake case does not end in an underscore, so no other field gets the renamed attribute
  have hunderscore : ∀ s, snakeCase s ≠ "copy_" := fun s => snakeCase_ne_append_underscore s "copy"
  rw [← snakeCase_eq_iff, attributeName, attributeName]
  split
  · rename_i hcopy
    split
    · rename_i hcopy'
      exact iff_of_true rfl (hcopy.trans hcopy'.symm)
    · rename_i hcopy'
      exact iff_of_false (hunderscore name').symm fun heq => hcopy' (heq.symm.trans hcopy)
  · rename_i hcopy
    split
    · rename_i hcopy'
      exact iff_of_false (hunderscore name) fun heq => hcopy (heq.trans hcopy')
    · rfl

theorem head?_filter_eq_head?_dropWhile {p q : Char → Bool} {cs : List Char}
    (h : ∀ c ∈ cs, p c = !q c) : (cs.filter p).head? = (cs.dropWhile q).head? := by
  induction cs with
  | nil => rfl
  | cons c cs ih =>
    obtain ⟨hc, hcs⟩ := List.forall_mem_cons.mp h
    cases hq : q c with
    | true =>
      rw [hq, Bool.not_true] at hc
      rw [List.filter_cons_of_neg (by simp [hc]), List.dropWhile_cons_of_pos hq]
      exact ih hcs
    | false =>
      rw [hq, Bool.not_false] at hc
      rw [List.filter_cons_of_pos hc, List.dropWhile_cons_of_neg (by simp [hq])]
      rfl

/-- The first letter or digit of a proper name is the first character that is no underscore. -/
theorem head?_filter_isAlphanum {name : String} (h : Document.isName name = true) :
    (name.toList.filter Char.isAlphanum).head? = (name.toList.dropWhile (· == '_')).head? := by
  refine head?_filter_eq_head?_dropWhile fun c hc => ?_
  have hname := Document.isNameChar_of_isName h hc
  rw [Document.Lexer.isNameChar, Bool.or_eq_true] at hname
  rcases hname with halpha | hunderscore
  · have hne : c ≠ '_' := by
      rintro rfl
      cases halpha
    rw [halpha, beq_false_of_ne hne, Bool.not_false]
  · rw [beq_iff_eq.mp hunderscore]
    rfl

theorem isName_iff {s : String} (h : ∀ c ∈ s.toList, Document.Lexer.isNameChar c = true) :
    Document.isName s = true ↔ ∃ c, s.toList.head? = some c ∧ Document.Lexer.isNameStart c = true := by
  rw [Document.isName]
  cases hs : s.toList with
  | nil => simp
  | cons c cs =>
    have hrest : cs.all Document.Lexer.isNameChar = true := by
      refine List.all_eq_true.mpr fun x hx => h x ?_
      rw [hs]
      exact List.mem_cons_of_mem c hx
    simp [hrest]

theorem head?_attributeName (name : String) :
    (attributeName name).toList.head? = (snakeCase name).toList.head? := by
  unfold attributeName
  split
  · rename_i hcopy
    rw [hcopy]
    rfl
  · rfl

/-- An attribute is a name exactly if a letter comes first in the name of its field, underscores apart. -/
theorem isName_attributeName_iff {name : String} (h : Document.isName name = true) :
    Document.isName (attributeName name) = true ↔ startsWithLetter name = true := by
  rw [isName_iff fun c => isNameChar_attributeName, head?_attributeName, head?_snakeCase]
  have hfirst := head?_filter_isAlphanum h
  rw [startsWithLetter]
  cases hchars : name.toList.dropWhile (· == '_') with
  | nil =>
    rw [hchars] at hfirst
    simp [hfirst, startsWith]
  | cons c cs =>
    rw [hchars, List.head?_cons] at hfirst
    have halpha : c.isAlphanum = true := (List.mem_filter.mp (List.mem_of_head? hfirst)).2
    have hne : c.toLower ≠ '_' := by
      intro heq
      rw [← isAlphanum_toLower, heq] at halpha
      cases halpha
    simp [hfirst, startsWith, Document.Lexer.isNameStart, hne]

/-! ## What a declared definition binds -/

theorem not_isKeyword_of_declared {o : Options} {t : ScalarTable} {d : Definition Empty}
    {D : Declaration} (h : (o.declare t d.widen).result = .ok D) :
    ∀ v ∈ d.content.values, isKeyword v = false := by
  obtain ⟨name, position, content⟩ := d
  cases content with
  | enum values =>
    change (declareEnum name values).result = .ok D at h
    rw [declareEnum_eq] at h
    cases hfind : values.find? isKeyword with
    | some value =>
      rw [hfind] at h
      cases h
    | none => exact fun v hv => Bool.not_eq_true _ ▸ List.find?_eq_none.mp hfind v hv
  | other gap => exact gap.elim
  | _ => exact nofun

/-- The names that the block of a definition binds by the default settings. -/
structure Binds (d : Definition Empty) (D : Declaration) : Prop where
  names : boundNames D.block.lines =
    D.name :: (d.content.values ++ d.content.fields.map fun f => attributeName f.name)
  name : Document.isName D.name = true
  values : ∀ v ∈ d.content.values, isBindable v = true
  fields : ∀ f ∈ d.content.fields,
    Document.isName f.name = true ∧ isKeyword (attributeName f.name) = false

section

variable {o : Options} {t : ScalarTable} {owner : String} (hreserved : o.reserved = .oneOf ["copy"])
  (hsuffix : o.aliasSuffix = "_")

include hreserved hsuffix

theorem attribute_name {f : Field Empty} {a : Attribute}
    (h : (o.attributeOf t owner f.widen).result = .ok a) :
    a.name = attributeName f.name ∧ isKeyword (attributeName f.name) = false := by
  obtain ⟨-, hname⟩ := attributeOf_ok h
  rw [Options.Reserves, hreserved, ReservedNames.contains, hsuffix] at hname
  rw [attributeName]
  rcases hname with ⟨hcopy, hname, -⟩ | ⟨hcopy, hkeyword, hname, -⟩
  · have hsnake : snakeCase f.name = "copy" := by simpa using hcopy
    rw [if_pos hsnake, hname, hsnake]
    exact ⟨rfl, by decide⟩
  · have hsnake : snakeCase f.name ≠ "copy" := by simpa using hcopy
    rw [if_neg hsnake]
    exact ⟨hname, hkeyword⟩

theorem members_of_attributes {fields : List (Field Empty)} {attributes : List Attribute}
    (h : (fields.map fun f => (o.attributeOf t owner f.widen).result) = attributes.map .ok) :
    (attributes.map Attribute.line).map memberName? =
        (fields.map fun f => attributeName f.name).map some ∧
      ∀ f ∈ fields, isKeyword (attributeName f.name) = false := by
  induction fields generalizing attributes with
  | nil =>
    obtain rfl : attributes = [] := by simpa using h.symm
    exact ⟨rfl, nofun⟩
  | cons f fields ih =>
    cases attributes with
    | nil => cases h
    | cons a attributes =>
      obtain ⟨ha, hrest⟩ := List.cons.inj h
      obtain ⟨hname, hkeyword⟩ := attribute_name hreserved hsuffix ha
      obtain ⟨hmembers, hkeywords⟩ := ih hrest
      refine ⟨?_, List.forall_mem_cons.mpr ⟨hkeyword, hkeywords⟩⟩
      have hline : memberName? a.line = some (attributeName f.name) := by
        rw [← hname]
        exact memberName?_line fun c hc => isNameChar_attributeName (hname ▸ hc)
      exact congrArg₂ List.cons hline hmembers

theorem binds_of_declared {d : Definition Empty} {D : Declaration}
    (h : (o.declare t d.widen).result = .ok D) (hname : Document.isName d.name = true)
    (hnames : ∀ n ∈ d.content.names, Document.isName n = true) : Binds d D := by
  have hdeclares := declares_of_ok h
  obtain ⟨hvalues, hfields, -, -⟩ := Content.forall_mem_names.mp hnames
  have hchars : ∀ c ∈ d.name.toList, Document.Lexer.isNameChar c = true := fun c hc =>
    Document.isNameChar_of_isName hname hc
  have hbindable : ∀ v ∈ d.content.values, isBindable v = true := by
    intro v hv
    rw [isBindable, hvalues v hv, not_isKeyword_of_declared h v hv]
    rfl
  -- an enum has no fields and a model no values, so one list of names serves all kinds
  have hblock : boundNames D.block.lines = d.name ::
        (d.content.values ++ d.content.fields.map fun f => attributeName f.name) ∧
      ∀ f ∈ d.content.fields, isKeyword (attributeName f.name) = false := by
    have hwrites := hdeclares.writes
    cases hcontent : d.content with
    | enum values =>
      rw [hcontent] at hwrites hvalues
      have hblock : D.block = .classBody d.name ["str", "Enum"] (values.map enumLine) := hwrites
      have hmembers : (values.map enumLine).map memberName? = values.map some := by
        rw [List.map_map]
        exact List.map_congr_left fun v hv => memberName?_enumLine (hvalues v hv)
      rw [hblock, boundNames_classBody hchars hmembers]
      exact ⟨congrArg _ (List.append_nil values).symm, nofun⟩
    | union members =>
      rw [hcontent] at hwrites
      obtain ⟨texts, -, hblock⟩ := hwrites
      rw [hblock]
      exact ⟨congrArg (· :: _) (headName_alias hchars _), nofun⟩
    | interface fields | object fields interfaces | input fields =>
      rw [hcontent] at hwrites
      obtain ⟨attributes, hattributes, hblock⟩ := hwrites
      obtain ⟨hmembers, hkeywords⟩ := members_of_attributes hreserved hsuffix hattributes
      rw [hblock]
      exact ⟨boundNames_classBody hchars hmembers, hkeywords⟩
    | other gap => exact gap.elim
  refine ⟨?_, hdeclares.name ▸ hname, hbindable, fun f hf => ⟨(hfields f hf).1, hblock.2 f hf⟩⟩
  rw [hdeclares.name]
  exact hblock.1

end

theorem Binds.isNameChar {d : Definition Empty} {D : Declaration} (h : Binds d D) {n : String}
    (hn : n ∈ boundNames D.block.lines) {c : Char} (hc : c ∈ n.toList) :
    Document.Lexer.isNameChar c = true := by
  rw [h.names, List.mem_cons, List.mem_append, List.mem_map] at hn
  rcases hn with rfl | hv | ⟨f, -, rfl⟩
  · exact Document.isNameChar_of_isName h.name hc
  · have hbindable := h.values n hv
    rw [isBindable, Bool.and_eq_true] at hbindable
    exact Document.isNameChar_of_isName hbindable.1 hc
  · exact isNameChar_attributeName hc

/-- All names that a block binds can be bound exactly if its own name is no keyword, and in the name of
each field a letter comes first, underscores apart. -/
theorem Binds.bindable_iff {d : Definition Empty} {D : Declaration} (h : Binds d D) :
    (∀ n ∈ boundNames D.block.lines, isBindable n = true) ↔
      isKeyword D.name = false ∧ ∀ f ∈ d.content.fields, startsWithLetter f.name = true := by
  have hname : isBindable D.name = true ↔ isKeyword D.name = false := by
    rw [isBindable, h.name, Bool.true_and, Bool.not_eq_true']
  have hfields : ∀ f ∈ d.content.fields,
      isBindable (attributeName f.name) = true ↔ startsWithLetter f.name = true := by
    intro f hf
    obtain ⟨hname, hkeyword⟩ := h.fields f hf
    rw [isBindable, hkeyword, Bool.not_false, Bool.and_true, isName_attributeName_iff hname]
  simp only [h.names, List.forall_mem_cons, List.forall_mem_append, List.forall_mem_map, hname,
    iff_true_intro h.values, true_and]
  exact and_congr_right fun _ => forall₂_congr hfields

/-! ## Modules by the default settings -/

namespace Generator

variable {text comment : String} {doc : Document} {m : GeneratedModule}

theorem unbroken_default : ({} : Settings).options.Unbroken {} := ⟨nofun, by decide⟩

theorem binds_of_parse (hdoc : Document.parse text = .ok doc) {d : Definition Empty}
    (hd : d ∈ doc.definitions) {D : Declaration}
    (h : (({} : Settings).options.declare (doc.scalarTable {}) d.widen).result = .ok D) : Binds d D := by
  obtain ⟨hname, hnames⟩ := (Document.wellNamed_of_parse hdoc).definition hd
  exact binds_of_declared rfl rfl h hname hnames

/-- The blocks of a module by the default settings, each with its definition. -/
theorem exists_definitions (hdoc : Document.parse text = .ok doc)
    (h : (generate ({} : Settings).options text comment).result = .ok m) :
    ∃ ds, ReadsBack ({} : Settings).options doc "" m ds ∧
      ∀ D ∈ ds, ∃ d ∈ doc.definitions, d.name = D.name ∧
        (({} : Settings).options.declare (doc.scalarTable {}) d.widen).result = .ok D := by
  have hrun : (ofDocument ({} : Settings).options doc comment).result = .ok m := by
    rwa [generate, hdoc] at h
  have hcomment : ({} : Settings).options.comment = true → Unbroken comment :=
    fun h => absurd h Bool.false_ne_true
  obtain ⟨ds, hreads⟩ :=
    readsBack rfl unbroken_default hcomment (Document.wellNamed_of_parse hdoc) hrun
  refine ⟨ds, hreads, fun D hD => ?_⟩
  obtain ⟨s, ds', hcovers, hds, hemitted, -, -⟩ := exists_emitted_of_ok rfl hrun
  cases hreads.emitted.symm.trans hemitted
  exact hcovers.declared ((hcovers.mem_emitted hds).mp hD).1

theorem bodyNames_eq {o : Options} {ds : List Declaration} (h : ReadsBack o doc comment m ds) :
    bodyNames m.body = ds.flatMap fun D => boundNames D.block.lines := by
  rw [bodyNames]
  split
  · rename_i hempty
    rw [h.empty.mp hempty]
    rfl
  · rename_i hne
    rw [h.blocks hne, List.flatMap_map]
    exact List.flatMap_congr fun D hD => congrArg boundNames (h.lines D hD)

/-- Every name that a module binds by the default settings is made of letters, digits and underscores.
All of them can be bound exactly if no definition with a block is named like a keyword, and in the name
of each of its fields a letter comes first, underscores apart. -/
theorem bodyNames_bindable_iff (hdoc : Document.parse text = .ok doc)
    (h : (generate ({} : Settings).options text comment).result = .ok m) :
    (∀ n ∈ bodyNames m.body, ∀ c ∈ n.toList, Document.Lexer.isNameChar c = true) ∧
      ∃ ds, emitted ({} : Settings).options doc = .ok ds ∧
        ((∀ n ∈ bodyNames m.body, isBindable n = true) ↔
          ∀ D ∈ ds, isKeyword D.name = false ∧ ∃ d ∈ doc.definitions, d.name = D.name ∧
            (({} : Settings).options.declare (doc.scalarTable {}) d.widen).result = .ok D ∧
            ∀ f ∈ d.content.fields, startsWithLetter f.name = true) := by
  obtain ⟨ds, hreads, hdefinitions⟩ := exists_definitions hdoc h
  rw [bodyNames_eq hreads]
  refine ⟨fun n hn c hc => ?_, ds, hreads.emitted, ?_⟩
  · obtain ⟨D, hD, hn⟩ := List.mem_flatMap.mp hn
    obtain ⟨d, hd, -, hok⟩ := hdefinitions D hD
    exact (binds_of_parse hdoc hd hok).isNameChar hn hc
  · simp only [List.forall_mem_flatMap]
    refine forall₂_congr fun D hD => ?_
    constructor
    · intro hall
      obtain ⟨d, hd, hname, hok⟩ := hdefinitions D hD
      obtain ⟨hkeyword, hletters⟩ := (binds_of_parse hdoc hd hok).bindable_iff.mp hall
      exact ⟨hkeyword, d, hd, hname, hok, hletters⟩
    · rintro ⟨hkeyword, d, hd, -, hok, hletters⟩
      exact (binds_of_parse hdoc hd hok).bindable_iff.mpr ⟨hkeyword, hletters⟩

/-- A field whose name starts with an underscore, and one of a reserved name. -/
theorem bodyNames_bindable_iff_letters :
    let text := "type T \x7b _id: ID! copy: Int \x7d"
    let lines := ["    id: str", "    copy_: Optional[int] = Field(None, alias='copy')"]
    let d : Definition Empty :=
      ⟨"T", 0, .object [⟨"_id", .nonNull (.named "ID")⟩, ⟨"copy", .named "Int"⟩] []⟩
    let doc : Document := ⟨[.definition d.name d.content]⟩
    Document.parse text = .ok doc ∧
      ∃ m, (generate ({} : Settings).options text "").result = .ok m ∧
        m.body = joinLines ("class T(BaseModel):" :: lines) ∧
        ∀ n ∈ bodyNames m.body, isBindable n = true := by
  intro text lines d doc
  let D : Declaration := .ofModel "T" .object [] lines
  have hparse : (Document.parse text).toOption = some doc := by decide +kernel
  have hdoc := eq_ok_of_toOption hparse
  have hrun : (generate ({} : Settings).options text "").result.toOption.map (·.body) =
      some (joinLines ("class T(BaseModel):" :: lines)) := by decide +kernel
  obtain ⟨m, hm, hbody⟩ := Option.map_eq_some_iff.mp hrun
  have hgenerate := eq_ok_of_toOption hm
  have hemitted : (emitted ({} : Settings).options doc).toOption = some [D] := by decide +kernel
  have hdeclared : (({} : Settings).options.declare (doc.scalarTable {}) d.widen).result.toOption =
      some D := by decide +kernel
  obtain ⟨-, ds, hds, hiff⟩ := bodyNames_bindable_iff hdoc hgenerate
  cases hds.symm.trans (eq_ok_of_toOption hemitted)
  refine ⟨hdoc, m, hgenerate, hbody, hiff.mpr (List.forall_mem_singleton.mpr ⟨by decide, d, ?_⟩)⟩
  exact ⟨by decide +kernel, rfl, eq_ok_of_toOption hdeclared, by decide⟩

/-- An underscore alone has no words, so its attribute has no name at all. -/
theorem bodyNames_underscore :
    let text := "type T \x7b _: ID! \x7d"
    ∃ m, (generate ({} : Settings).options text "").result = .ok m ∧ bodyNames m.body = ["T", ""] ∧
      isBindable "" = false := by
  intro text
  have hrun : (generate ({} : Settings).options text "").result.toOption.map (·.body) =
      some (joinLines ["class T(BaseModel):", "    : str"]) := by decide +kernel
  obtain ⟨m, hm, hbody⟩ := Option.map_eq_some_iff.mp hrun
  refine ⟨m, eq_ok_of_toOption hm, ?_, rfl⟩
  rw [hbody, bodyNames_joinLines (List.cons_ne_nil _ _) (by decide)]
  decide

/-- By the default settings each field has a line of its own in its class, and the attributes of two
fields are different exactly if their names have different words, up to the case of letters. -/
theorem attributes_distinct_iff (hdoc : Document.parse text = .ok doc)
    (h : (generate ({} : Settings).options text comment).result = .ok m) :
    ∃ ds, emitted ({} : Settings).options doc = .ok ds ∧
      (m.body ≠ "" → splitAt "\n\n" m.body = ds.map (·.block.text)) ∧
      ∀ D ∈ ds, D.kind ≠ .enum → ∃ d ∈ doc.definitions, d.name = D.name ∧
        (({} : Settings).options.declare (doc.scalarTable {}) d.widen).result = .ok D ∧
        boundNames (splitAt "\n" D.block.text) =
          D.name :: d.content.fields.map (fun f => attributeName f.name) ∧
        (∀ f ∈ d.content.fields, ∀ g ∈ d.content.fields,
          attributeName f.name = attributeName g.name ↔ lowerWords f.name = lowerWords g.name) ∧
        ((boundNames (splitAt "\n" D.block.text)).tail.Nodup ↔
          (d.content.fields.map fun f => lowerWords f.name).Nodup) := by
  obtain ⟨ds, hreads, hdefinitions⟩ := exists_definitions hdoc h
  refine ⟨ds, hreads.emitted, hreads.blocks, fun D hD hkind => ?_⟩
  obtain ⟨d, hd, hname, hok⟩ := hdefinitions D hD
  have hvalues : d.content.values = [] := by
    rw [(declares_of_ok hok).kind] at hkind
    cases hcontent : d.content with
    | enum values =>
      rw [hcontent] at hkind
      exact absurd rfl hkind
    | other gap => exact gap.elim
    | _ => rfl
  have hnames := (binds_of_parse hdoc hd hok).names
  rw [hvalues, List.nil_append] at hnames
  rw [hreads.lines D hD, hnames, List.tail_cons]
  refine ⟨d, hd, hname, hok, rfl, fun f _ g _ => attributeName_eq_iff, ?_⟩
  simp only [List.Nodup, List.pairwise_map, ne_eq, attributeName_eq_iff]

/-- An extension adds a field to one of a reserved name. -/
theorem attributes_distinct_iff_copy :
    let text := "type T \x7b copy: ID! \x7d extend type T \x7b copyOf: ID! \x7d"
    let type : TypeRef Empty := .nonNull (.named "ID")
    let doc : Document := ⟨[.definition "T" (.object [⟨"copy", type⟩] []),
      .extension "T" (.object [⟨"copyOf", type⟩] [])]⟩
    Document.parse text = .ok doc ∧
      ∃ m D, (generate ({} : Settings).options text "").result = .ok m ∧
        emitted ({} : Settings).options doc = .ok [D] ∧
        boundNames (splitAt "\n" D.block.text) = ["T", "copy_", "copy_of"] ∧
        (boundNames (splitAt "\n" D.block.text)).tail.Nodup := by
  intro text type doc
  let D : Declaration := .ofModel "T" .object []
    ["    copy_: str = Field(..., alias='copy')", "    copy_of: str"]
  have hparse : (Document.parse text).toOption = some doc := by decide +kernel
  have hdoc := eq_ok_of_toOption hparse
  have hrun : (generate ({} : Settings).options text "").result.toOption.isSome = true := by
    decide +kernel
  obtain ⟨m, hm⟩ := Option.isSome_iff_exists.mp hrun
  have hgenerate := eq_ok_of_toOption hm
  have hemitted : (emitted ({} : Settings).options doc).toOption = some [D] := by decide +kernel
  have hdefinitions : doc.definitions =
      [⟨"T", 0, .object [⟨"copy", type⟩, ⟨"copyOf", type⟩] []⟩] := by decide +kernel
  obtain ⟨ds, hds, -, hnames⟩ := attributes_distinct_iff hdoc hgenerate
  cases hds.symm.trans (eq_ok_of_toOption hemitted)
  obtain ⟨d, hd, -, -, hbound, -, hdistinct⟩ := hnames D List.mem_cons_self nofun
  rw [hdefinitions, List.mem_singleton] at hd
  subst hd
  exact ⟨hdoc, m, D, hgenerate, hds, hbound.trans (by decide), hdistinct.mpr (by decide)⟩

/-- Two different names of fields with the same words. -/
theorem attributes_not_distinct :
    let text := "type T \x7b fooBar: Int foo_bar: Int \x7d"
    "fooBar" ≠ "foo_bar" ∧
      ∃ m, (generate ({} : Settings).options text "").result = .ok m ∧
        bodyNames m.body = ["T", "foo_bar", "foo_bar"] := by
  intro text
  have hrun : (generate ({} : Settings).options text "").result.toOption.map (·.body) =
      some (joinLines ["class T(BaseModel):", "    foo_bar: Optional[int]",
        "    foo_bar: Optional[int]"]) := by decide +kernel
  obtain ⟨m, hm, hbody⟩ := Option.map_eq_some_iff.mp hrun
  refine ⟨by decide, m, eq_ok_of_toOption hm, ?_⟩
  rw [hbody, bodyNames_joinLines (List.cons_ne_nil _ _) (by decide)]
  decide

end Generator

end SchemaModels
