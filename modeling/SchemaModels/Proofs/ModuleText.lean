import SchemaModels.Proofs.Unbroken

/-! # Reading a module back

The text of a module can be taken apart again by its newlines: two blank lines stand between what is in
front and the blocks, one blank line between blocks, and none inside a block
(`Generator.source_reads_back`). -/

namespace SchemaModels

open Text

/-! ## Settings without line breaks -/

/-- A raw text without line breaks. -/
def RawText.Unbroken (raw : RawText) : Prop := ∀ ch, CodePoint.char ch ∈ raw → isLineBreak ch = false

/-- Settings that write no line break into a module: the alias suffix is a text without one, and so are
the targets of scalars. -/
structure Settings.Unbroken (c : Settings) : Prop where
  targets : ∀ es, c.scalars = some (.object es) → ∀ e ∈ es, ∀ raw, e.2 = .text raw → raw.Unbroken
  suffix : ∃ raw, c.aliasSuffix = .text raw ∧ raw.Unbroken

theorem unbroken_ofString {s : String} (h : Text.Unbroken s) : (RawText.ofString s).Unbroken := by
  intro ch hch
  obtain ⟨c, hc, heq⟩ := List.mem_map.mp hch
  cases heq
  exact h ch hc

theorem unbroken_toStringWith {raw : RawText} (h : raw.Unbroken) :
    Text.Unbroken (raw.toStringWith '\ufffd') := by
  intro ch hch
  rw [RawText.toStringWith, String.toList_ofList, List.mem_map] at hch
  obtain ⟨p, hp, rfl⟩ := hch
  cases p with
  | char ch => exact h ch hp
  | surrogate offset =>
    have hstandIn : isLineBreak '\ufffd' = false := by decide
    exact hstandIn

/-- The targets of overrides are texts of the entries. -/
theorem Overrides.exists_of_mem_values {standIn : Char} {es : List (Setting.Key × Setting)}
    {overrides : Overrides} (h : ofEntries standIn es = .ok overrides) {target : String}
    (htarget : target ∈ overrides.named.values) :
    ∃ e ∈ es, ∃ raw, e.2 = .text raw ∧ target = raw.toStringWith standIn := by
  induction es generalizing overrides with
  | nil =>
    cases h
    cases htarget
  | cons e es ih =>
    obtain ⟨k, v⟩ := e
    cases v with
    | text raw =>
      rw [ofEntries] at h
      obtain ⟨rest, hrest, h⟩ := bind_eq_ok_iff.mp h
      have hlater : target ∈ rest.named.values → ∃ e ∈ (k, .text raw) :: es, ∃ raw,
          e.2 = .text raw ∧ target = raw.toStringWith standIn := by
        intro hmem
        obtain ⟨e, he, hraw⟩ := ih hrest hmem
        exact ⟨e, List.mem_cons_of_mem _ he, hraw⟩
      cases hname : k.name? with
      | some name =>
        rw [hname] at h
        cases h
        rcases List.mem_cons.mp htarget with rfl | hmem
        · exact ⟨_, List.mem_cons_self, raw, rfl, rfl⟩
        · exact hlater hmem
      | none =>
        rw [hname] at h
        cases h
        exact hlater htarget
    | null | bool | int | float | list | object => cases h

theorem Setting.mem_values_mapping {es : List (RawText × Setting)} {table : Table Setting.Key Setting}
    (h : (Setting.object es).mapping = .ok table) {v : Setting} (hv : v ∈ table.values) :
    v ∈ es.map (·.2) := by
  have hmapping : (Setting.object es).mapping = .ok (.ofList (es.map fun e => (.text e.1, e.2))) := by
    cases es <;> rfl
  cases hmapping.symm.trans h
  have hmem := (Table.mem_values_insertAll hv).resolve_right List.not_mem_nil
  rwa [List.map_map] at hmem

theorem Settings.WellTyped.unbroken_options {c : Settings} (hc : c.WellTyped) (h : c.Unbroken)
    {overrides : Overrides} (hoverrides : c.options.overrides = .ok overrides) :
    c.options.Unbroken overrides := by
  constructor
  · intro target htarget
    obtain ⟨es, hscalars, -⟩ := hc.scalars
    rw [Settings.options, Settings.optionsWith, hscalars] at hoverrides
    obtain ⟨table, htable, hentries⟩ := bind_eq_ok_iff.mp hoverrides
    obtain ⟨e, he, raw, hraw, rfl⟩ := Overrides.exists_of_mem_values hentries htarget
    obtain ⟨e', he', hvalue⟩ :=
      List.mem_map.mp (Setting.mem_values_mapping htable (List.mem_map_of_mem (f := (·.2)) he))
    exact unbroken_toStringWith (h.targets es hscalars e' he' raw (hvalue.trans hraw))
  · obtain ⟨raw, hsuffix, hraw⟩ := h.suffix
    have hdisplay : c.options.aliasSuffix = raw.toStringWith '\ufffd' := by
      rw [Settings.options, Settings.optionsWith, hsuffix, Setting.display]
    rw [hdisplay]
    exact unbroken_toStringWith hraw

/-! ## The parts of a module -/

/-- What stands in front of the blocks: the header, with a comment and a blank line before it. -/
def commentedHeader (header comment : String) : String :=
  if comment = "" then header
  else if header = "" then "# " ++ comment
  else "# " ++ comment ++ "\n\n" ++ header

theorem join_lines (lines : List String) (hne : lines ≠ []) :
    String.join (lines.map (· ++ "\n")) = joinLines lines ++ "\n" := by
  induction lines with
  | nil => exact absurd rfl hne
  | cons l lines ih =>
    rw [List.map_cons, String.join_cons]
    by_cases hrest : lines = []
    · rw [hrest, List.map_nil, String.join_nil, String.append_empty, joinLines_singleton]
    · rw [ih hrest, joinLines, joinLines, String.intercalate_cons_of_ne_nil hrest]
      simp only [String.append_assoc]

section

variable {lines : List String} {comment : String} (hlines : ∀ l ∈ lines, IsLine l)
  (hcomment : Text.Unbroken comment)

include hlines hcomment

theorem modulePreamble_eq :
    modulePreamble (joinLines lines) comment = commentedHeader (joinLines lines) comment := by
  have hnote : Text.Unbroken ("# " ++ comment) := unbroken_append.mpr ⟨by decide, hcomment⟩
  rw [modulePreamble, splitLines_joinLines hlines, commentedHeader]
  by_cases hempty : lines = []
  · subst hempty
    by_cases hnone : comment = ""
    · subst hnone
      rfl
    · have htrim := trimNewlines_append (t := "\n\n") hnote.getLast?_ne rfl
      simpa [hnone, joinLines] using htrim
  · have hheader := joinLines_ne_empty hempty hlines
    rw [join_lines lines hempty]
    by_cases hnone : comment = ""
    · subst hnone
      have htrim := trimNewlines_append (t := "\n") (getLast?_joinLines hlines) rfl
      simpa using htrim
    · have hlast : ("# " ++ comment ++ "\n\n" ++ joinLines lines).toList.getLast? ≠ some '\n' := by
        rw [String.toList_append, List.getLast?_append_of_ne_nil _ (by simpa using hheader)]
        exact getLast?_joinLines hlines
      have htrim := trimNewlines_append (t := "\n") hlast rfl
      rw [String.append_assoc] at htrim
      simpa [hnone, hheader] using htrim

theorem passes_commentedHeader :
    Passes (newlines 3) (commentedHeader (joinLines lines) comment).toList := by
  have hnote : Text.Unbroken ("# " ++ comment) := unbroken_append.mpr ⟨by decide, hcomment⟩
  have hline : Passes (newlines 3) ("# " ++ comment).toList :=
    passes_line (by decide) hnote.newline_not_mem
  rw [commentedHeader]
  split
  · exact passes_joinLines (by decide) hlines
  · split
    · exact hline
    · rename_i hheader
      have hne : lines ≠ [] := by
        rintro rfl
        exact hheader rfl
      have hrest := passes_newlines_joinLines (n := 3) (k := 2) (by decide) (by decide) hne hlines
      have hchars : ("# " ++ comment ++ "\n\n" ++ joinLines lines).toList =
          ("# " ++ comment).toList ++ (newlines 2 ++ (joinLines lines).toList) := by
        rw [String.toList_append, String.toList_append, List.append_assoc]
        rfl
      rw [hchars]
      exact hline.append hrest

end

theorem renderModule_of_empty (header comment : String) :
    renderModule header "" comment = modulePreamble header comment ++ "\n" := by
  rw [renderModule]
  by_cases hpreamble : modulePreamble header comment = ""
  · simp [hpreamble]
  · simp [hpreamble]

theorem renderModule_of_ne_empty {header body comment : String}
    (hpreamble : modulePreamble header comment ≠ "") (hbody : body ≠ "") :
    renderModule header body comment =
      modulePreamble header comment ++ "\n\n\n" ++ body ++ "\n" := by
  rw [renderModule]
  simp [hpreamble, hbody, String.intercalate_cons_cons]

theorem commentedHeader_ne_empty {header comment : String} (h : header ≠ "") :
    commentedHeader header comment ≠ "" := by
  rw [commentedHeader, if_neg h]
  split
  · exact h
  · simp

/-- What is in front and the body come back from the text of a module. -/
theorem exists_front {header body comment : String}
    (hpreamble : modulePreamble header comment = commentedHeader header comment)
    (hpasses : Passes "\n\n\n".toList (commentedHeader header comment).toList)
    (hheader : body ≠ "" → header ≠ "") :
    ∃ front, renderModule header body comment = front ++ "\n" ∧
      (body = "" ↔ cutAt? "\n\n\n" front = none) ∧
      (body = "" → front = commentedHeader header comment) ∧
      (body ≠ "" → cutAt? "\n\n\n" front = some (commentedHeader header comment, body)) := by
  by_cases hbody : body = ""
  · refine ⟨commentedHeader header comment, ?_, ?_, fun _ => rfl, fun hne => absurd hbody hne⟩
    · rw [hbody, renderModule_of_empty, hpreamble]
    · exact iff_of_true hbody (cutAt?_eq_none hpasses)
  · have hcut := cutAt?_append (by decide) hpasses body
    have hne : commentedHeader header comment ≠ "" := commentedHeader_ne_empty (hheader hbody)
    refine ⟨commentedHeader header comment ++ "\n\n\n" ++ body, ?_, ?_,
      fun hempty => absurd hempty hbody, fun _ => hcut⟩
    · rw [renderModule_of_ne_empty (hpreamble ▸ hne) hbody, hpreamble]
    · rw [hcut]
      exact iff_of_false hbody (Option.some_ne_none _)

/-! ## The lines of a definition -/

/-- The lines of a class: its head, then its body, or a line that passes. -/
def classLines (head : String) (body : List String) : List String :=
  head :: if body = [] then ["    pass"] else body

/-- The lines of the block of a definition with extensions: those of an enum have a line for each value,
those of a class a line for each field, as a session writes it in which nothing else is declared. -/
def BlockLines (o : Options) (t : ScalarTable) (name : String) (content : Content Empty)
    (extensions : List (Content Empty)) (lines : List String) : Prop :=
  let values := content.values ++ extensions.flatMap Content.values
  let fields := content.fields ++ extensions.flatMap Content.fields
  let interfaces := content.interfaces ++ extensions.flatMap Content.interfaces
  match content.kind with
  | .enum => lines = classLines ("class " ++ name ++ "(str, Enum):")
      (values.map fun value => "    " ++ value ++ " = '" ++ value ++ "'")
  | .union => ∃ members, lines = [name ++ " = Union[" ++ ", ".intercalate members ++ "]"]
  | .interface | .object | .input => ∃ body : List String,
      (fields.map fun f => ((Session.initial o t ∅).fieldLine name f.widen).2) = body.map .ok ∧
      lines = classLines ("class " ++ name ++ "(" ++
        (if interfaces = [] then "BaseModel" else ", ".intercalate interfaces) ++ "):") body

theorem fieldLine_initial (o : Options) (t : ScalarTable) (owner : String) (f : Field Gap) :
    ((Session.initial o t ∅).fieldLine owner f).2 =
      (o.attributeOf t owner f).result.map Attribute.line :=
  Written.result_map _ _

theorem lines_classBody (name : String) (bases body : List String) :
    (Block.classBody name bases body).lines =
      classLines ("class " ++ name ++ "(" ++ ", ".intercalate bases ++ "):") body := by
  cases body <;> rfl

theorem Writes.blockLines {o : Options} {t : ScalarTable} {name : String} {content : Content Empty}
    {extensions : List (Content Empty)} {b : Block}
    (hkinds : ∀ part ∈ extensions, part.kind = content.kind)
    (h : Writes o t name (Document.contentWith content extensions) b) :
    BlockLines o t name content extensions b.lines := by
  rw [BlockLines, ← Content.project_contentWith Content.additive_values hkinds,
    ← Content.project_contentWith Content.additive_fields hkinds,
    ← Content.project_contentWith Content.additive_interfaces hkinds,
    ← Content.kind_contentWith content extensions]
  have hmodel : ∀ {fields : List (Field Empty)} {interfaces : List String} {attributes : List Attribute},
      (fields.map fun f => (o.attributeOf t name f.widen).result) = attributes.map .ok →
      ∃ body : List String,
        (fields.map fun f => ((Session.initial o t ∅).fieldLine name f.widen).2) = body.map .ok ∧
        (Block.classBody name (if interfaces.isEmpty then ["BaseModel"] else interfaces)
          (attributes.map Attribute.line)).lines = classLines ("class " ++ name ++ "(" ++
            (if interfaces = [] then "BaseModel" else ", ".intercalate interfaces) ++ "):") body := by
    intro fields interfaces attributes hattributes
    refine ⟨attributes.map Attribute.line, ?_, ?_⟩
    · have hmap := congrArg (List.map (Except.map Attribute.line)) hattributes
      simp only [List.map_map] at hmap
      simp only [fieldLine_initial, List.map_map]
      exact hmap
    · rw [lines_classBody]
      cases interfaces <;> rfl
  cases hcontent : Document.contentWith content extensions with
  | enum values =>
    rw [hcontent] at h
    obtain rfl := h
    have hhead : "class " ++ name ++ "(" ++ ", ".intercalate ["str", "Enum"] ++ "):" =
        "class " ++ name ++ "(str, Enum):" := by
      simp only [String.append_assoc]
      rfl
    have hlines := lines_classBody name ["str", "Enum"] (values.map enumLine)
    rw [hhead] at hlines
    exact hlines
  | union members =>
    rw [hcontent] at h
    obtain ⟨texts, -, rfl⟩ := h
    exact ⟨texts, rfl⟩
  | interface fields | object fields interfaces | input fields =>
    rw [hcontent] at h
    obtain ⟨attributes, hattributes, rfl⟩ := h
    exact hmodel hattributes
  | other gap => exact gap.elim

/-! ## Modules -/

namespace Session.Covers

variable {s : Session} {o : Options} {overrides : Overrides} {doc : Document} {ds : List Declaration}

theorem isLine_of_mem_emitted (H : s.Covers o (doc.scalarTable overrides) doc.definitions)
    (h : s.emitted = .ok ds) (ho : o.Unbroken overrides) (hdoc : doc.WellNamed) {D : Declaration}
    (hD : D ∈ ds) : ∀ l ∈ D.block.lines, IsLine l := by
  obtain ⟨d, hd, -, hok⟩ := H.declared ((H.mem_emitted h).mp hD).1
  obtain ⟨hname, hnames⟩ := hdoc.definition hd
  exact (declares_of_ok hok).writes.isLine ho hname hnames

end Session.Covers

namespace Generator

variable {o : Options} {overrides : Overrides} {doc : Document} {comment : String} {m : GeneratedModule}

/-- The parts of a module whose options and comment hold no line breaks. -/
structure ReadsBack (o : Options) (doc : Document) (comment : String) (m : GeneratedModule)
    (ds : List Declaration) : Prop where
  emitted : emitted o doc = .ok ds
  empty : m.body = "" ↔ ds = []
  source : ∃ front, m.source = front ++ "\n" ∧
    (m.body = "" ↔ cutAt? "\n\n\n" front = none) ∧
    (m.body = "" → front = commentedHeader m.header comment) ∧
    (m.body ≠ "" → cutAt? "\n\n\n" front = some (commentedHeader m.header comment, m.body))
  blocks : m.body ≠ "" → splitAt "\n\n" m.body = ds.map (·.block.text)
  lines : ∀ D ∈ ds, splitAt "\n" D.block.text = D.block.lines

theorem source_eq (h : (ofDocument o doc comment).result = .ok m) :
    m.source = renderModule m.header m.body (if o.comment then comment else "") := by
  rw [result_ofDocument] at h
  obtain ⟨s, hs, hassemble⟩ := bind_eq_ok_iff.mp h
  obtain ⟨overrides, hoverrides⟩ := exists_overrides hs
  rw [result_assemble, (covers_of_declareSchema hoverrides hs).options] at hassemble
  obtain ⟨warnings, -, hmodule⟩ := bind_eq_ok_iff.mp hassemble
  obtain ⟨body, -, rfl⟩ := map_eq_ok_iff.mp hmodule
  rfl

theorem intercalate_ne_empty {sep s : String} {ss : List String} (hs : s ≠ "") :
    sep.intercalate (s :: ss) ≠ "" := by
  by_cases hrest : ss = []
  · rwa [hrest, String.intercalate_singleton]
  · rw [String.intercalate_cons_of_ne_nil hrest]
    simp [hs]

theorem readsBack (hoverrides : o.overrides = .ok overrides) (ho : o.Unbroken overrides)
    (hcomment : o.comment = true → Text.Unbroken comment) (hdoc : doc.WellNamed)
    (h : (ofDocument o doc comment).result = .ok m) :
    ∃ ds, ReadsBack o doc (if o.comment then comment else "") m ds := by
  obtain ⟨s, ds, hcovers, hds, hemitted, hheader, hbody⟩ := exists_emitted_of_ok hoverrides h
  have hline : ∀ D ∈ ds, ∀ l ∈ D.block.lines, IsLine l := fun D hD =>
    hcovers.isLine_of_mem_emitted hds ho hdoc hD
  have htext : ∀ D ∈ ds, D.block.text = joinLines D.block.lines := fun D hD =>
    Block.text_eq (hline D hD)
  have hempty : m.body = "" ↔ ds = [] := by
    cases ds with
    | nil => exact ⟨fun _ => rfl, fun _ => hbody⟩
    | cons D rest =>
      have hne : D.block.text ≠ "" := by
        rw [htext D List.mem_cons_self]
        exact joinLines_ne_empty D.block.lines_ne_nil (hline D List.mem_cons_self)
      rw [hbody, List.map_cons]
      exact iff_of_false (intercalate_ne_empty hne) (List.cons_ne_nil D rest)
  have hshown : Text.Unbroken (if o.comment then comment else "") := by
    split
    · exact hcomment ‹_›
    · exact nofun
  have hlines := hcovers.isLine_header ho
  have hpreamble : modulePreamble m.header (if o.comment then comment else "") =
      commentedHeader m.header (if o.comment then comment else "") := by
    rw [hheader]
    exact modulePreamble_eq hlines hshown
  have hpasses : Passes "\n\n\n".toList
      (commentedHeader m.header (if o.comment then comment else "")).toList := by
    rw [hheader]
    exact passes_commentedHeader hlines hshown
  refine ⟨ds, hemitted, hempty, ?_, fun hne => ?_, fun D hD => ?_⟩
  · rw [source_eq h]
    refine exists_front hpreamble hpasses fun hne => ?_
    -- some definition has a block, and then the feature of its kind is imported
    obtain ⟨D, rest, rfl⟩ := List.exists_cons_of_ne_nil (mt hempty.mpr hne)
    obtain ⟨d, hd, -, -⟩ := hcovers.declared ((hcovers.mem_emitted hds).mp List.mem_cons_self).1
    rw [hheader]
    exact joinLines_ne_empty (Imports.lines_ne_nil (hcovers.feature_of_kind hd)) hlines
  · rw [hbody]
    refine splitAt_intercalate (by decide) (by simpa using mt hempty.mpr hne) fun p hp => ?_
    obtain ⟨D, hD, rfl⟩ := List.mem_map.mp hp
    rw [htext D hD]
    exact passes_joinLines (n := 2) (by decide) (hline D hD)
  · rw [htext D hD]
    exact splitAt_newline D.block.lines_ne_nil fun l hl => (hline D hD l hl).unbroken

/-- A module whose settings and comment hold no line breaks can be read back. Without the newline at its
end, the first two blank lines part what is in front from the body, single blank lines part the blocks
of the body, and newlines the lines of a block; a class has a line for each field of its definition and
then of the extensions, an enum for each value. -/
theorem source_reads_back {c : Settings} (hc : c.WellTyped) (hunbroken : c.Unbroken)
    (hcomment : Text.Unbroken comment) {text : String} (hdoc : Document.parse text = .ok doc)
    (hnames : (doc.definitions.map (·.name)).Nodup)
    (h : (generate c.options text comment).result = .ok m) :
    ∃ (overrides : Overrides) (ds : List Declaration), c.options.overrides = .ok overrides ∧
      ReadsBack c.options doc (if c.options.comment then comment else "") m ds ∧
      ∀ D ∈ ds, ∃ content, .definition D.name content ∈ doc.nodes ∧
        BlockLines c.options (doc.scalarTable overrides) D.name content
          (Document.extensionsOf D.name content.kind doc.nodes) (splitAt "\n" D.block.text) := by
  obtain ⟨overrides, reserved, husable⟩ := hc.exists_usable
  have ho := hc.unbroken_options hunbroken husable.overrides
  have hrun : (ofDocument c.options doc comment).result = .ok m := by
    rwa [generate, hdoc] at h
  obtain ⟨ds, hreads⟩ :=
    readsBack husable.overrides ho (fun _ => hcomment) (Document.wellNamed_of_parse hdoc) hrun
  refine ⟨overrides, ds, husable.overrides, hreads, fun D hD => ?_⟩
  obtain ⟨s, ds', hcovers, hds, hemitted, -, -⟩ := exists_emitted_of_ok husable.overrides hrun
  cases hreads.emitted.symm.trans hemitted
  obtain ⟨d, hd, -, hok⟩ := hcovers.declared ((hcovers.mem_emitted hds).mp hD).1
  obtain ⟨content, hnode, hcontent⟩ := Document.exists_extended_node hnames hd
  have hdeclares := declares_of_ok hok
  have hwrites := hdeclares.writes
  rw [hcontent] at hwrites
  rw [hreads.lines D hD, hdeclares.name]
  refine ⟨content, hnode, hwrites.blockLines fun part hpart => ?_⟩
  exact (Document.kind_of_mem_extensionsOf hpart).1

/-- A comment, a scalar of a module, and two definitions with extensions. -/
theorem source_reads_back_extended :
    let c : Settings :=
      { scalars := some (.object [(.ofString "Day", .ofString "datetime.date")])
        addGenerationComment := .bool true }
    let text := "union U = T type T \x7b copy: Day \x7d enum E \x7b A \x7d " ++
      "extend enum E \x7b B \x7d extend type T \x7b more: [U!] \x7d"
    let doc : Document := ⟨[.definition "U" (.union [.named "T"]),
      .definition "T" (.object [⟨"copy", .named "Day"⟩] []), .definition "E" (.enum ["A"]),
      .extension "E" (.enum ["B"]),
      .extension "T" (.object [⟨"more", .list (.nonNull (.named "U"))⟩] [])]⟩
    c.WellTyped ∧ c.Unbroken ∧ Text.Unbroken "Made by hand" ∧ Document.parse text = .ok doc ∧
      (doc.definitions.map (·.name)).Nodup ∧
      ∃ m, (generate c.options text "Made by hand").result = .ok m ∧
        ∃ (overrides : Overrides) (ds : List Declaration), c.options.overrides = .ok overrides ∧
          ReadsBack c.options doc "Made by hand" m ds ∧
          ∀ D ∈ ds, ∃ content, .definition D.name content ∈ doc.nodes ∧
            BlockLines c.options (doc.scalarTable overrides) D.name content
              (Document.extensionsOf D.name content.kind doc.nodes) (splitAt "\n" D.block.text) := by
  intro c text doc
  have hc : c.WellTyped := by
    refine ⟨⟨_, rfl, fun e he => ?_⟩, ⟨_, rfl⟩⟩
    obtain rfl := List.mem_singleton.mp he
    exact ⟨_, rfl⟩
  have hunbroken : c.Unbroken := by
    refine ⟨fun es hes e he raw hraw => ?_, ⟨_, rfl, ?_⟩⟩
    · cases hes
      obtain rfl := List.mem_singleton.mp he
      cases hraw
      exact unbroken_ofString (by decide)
    · exact unbroken_ofString (by decide)
  have hparse : (Document.parse text).toOption = some doc := by decide +kernel
  have hdoc := eq_ok_of_toOption hparse
  have hnames : (doc.definitions.map (·.name)).Nodup := by decide +kernel
  let overrides : Overrides := { named := ⟨[("Day", "datetime.date")]⟩ }
  have ho : c.options.Usable overrides ["copy"] := ⟨rfl, rfl⟩
  have hrank : ¬HasCycle (doc.scalarTable overrides) doc.definitions :=
    not_hasCycle_of_rank (fun n => if n = "U" then 1 else 0) (by decide +kernel)
  obtain ⟨m, hm⟩ := (result_of_resolved ho (by decide +kernel) "Made by hand"
    fun h => Bool.false_ne_true h.1).2 hrank
  have hrun : (generate c.options text "Made by hand").result = .ok m := by rwa [generate, hdoc]
  exact ⟨hc, hunbroken, by decide, hdoc, hnames, m, hrun,
    source_reads_back hc hunbroken (by decide) hdoc hnames hrun⟩

end Generator

end SchemaModels
