import Mathlib.Data.List.Basic
import Mathlib.Data.List.Sort
import Mathlib.Data.String.Basic
import SchemaModels.Imports
import SchemaModels.Text.Identifier

/-! # Import lines

A header can be read back (`Imports.read`): its lines list exactly the names of the features in use
and the registered names, each on the line of its module. Two sets of imports with the same features
and names have the same header, in whatever order these came. -/

namespace SchemaModels

/-! ## Sorted lists of names -/

theorem pairwise_mergeSort_le (l : List String) : l.mergeSort.Pairwise (· ≤ ·) := by
  have hsorted : l.mergeSort.Pairwise fun a b => decide (a ≤ b) :=
    List.pairwise_mergeSort (fun a b c => by simpa using String.le_trans)
      (fun a b => by simpa using String.le_total a b) l
  simpa using hsorted

theorem pairwise_lt_mergeSort {l : List String} (h : l.Nodup) : l.mergeSort.Pairwise (· < ·) := by
  have hnodup : l.mergeSort.Nodup := (List.mergeSort_perm l _).nodup_iff.mpr h
  exact (pairwise_mergeSort_le l).imp₂ (fun a b hle hne => lt_of_le_of_ne hle hne) hnodup

theorem mergeSort_eq_of_perm {l l' : List String} (h : l.Perm l') : l.mergeSort = l'.mergeSort := by
  have hperm : l.mergeSort.Perm l'.mergeSort :=
    (List.mergeSort_perm l _).trans (h.trans (List.mergeSort_perm l' _).symm)
  exact hperm.eq_of_pairwise' (pairwise_mergeSort_le l) (pairwise_mergeSort_le l')

theorem nodup_eraseDups (l : List String) : l.eraseDups.Nodup := by
  induction hlen : l.length using Nat.strong_induction_on generalizing l with
  | _ n ih =>
    cases l with
    | nil => exact List.nodup_nil
    | cons a l =>
      have hshorter : (l.filter fun b => !b == a).length < n := by
        have := List.length_filter_le (fun b => !b == a) l
        rw [List.length_cons] at hlen
        omega
      rw [List.eraseDups_cons, List.nodup_cons, List.mem_eraseDups]
      exact ⟨by simp, ih _ hshorter _ rfl⟩

/-! ## Plain texts -/

namespace Text

/-- An identifier, or several with full stops between them. -/
def isDottedIdentifier (s : String) : Bool :=
  (s.toList.splitOn '.').all fun part => isIdentifier (String.ofList part)

/-- A text without the characters that end a name on an import line. -/
def Plain (s : String) : Prop := ' ' ∉ s.toList ∧ ',' ∉ s.toList ∧ '\n' ∉ s.toList

theorem continuesIdentifier_of_mem {s : String} (h : isIdentifier s = true) {c : Char}
    (hc : c ∈ s.toList) : continuesIdentifier c = true := by
  unfold isIdentifier at h
  split at h
  · cases h
  · rename_i first rest heq
    rw [heq] at hc
    rw [Bool.and_eq_true] at h
    rcases List.mem_cons.mp hc with rfl | hc
    · rw [continuesIdentifier, h.1, Bool.true_or]
    · exact List.all_eq_true.mp h.2 c hc

/-- Every character but the separator stays in one of the parts. -/
theorem exists_mem_splitOn {sep c : Char} {cs : List Char} (hc : c ∈ cs) (hne : c ≠ sep) :
    ∃ part ∈ cs.splitOn sep, c ∈ part := by
  induction cs with
  | nil => cases hc
  | cons x cs ih =>
    rw [List.splitOn_cons_eq_if_modifyHead]
    obtain ⟨first, rest, hsplit⟩ := List.exists_cons_of_ne_nil (List.splitOn_ne_nil sep cs)
    rw [hsplit] at ih ⊢
    rcases List.mem_cons.mp hc with rfl | hc
    · rw [if_neg (by simpa using hne)]
      exact ⟨c :: first, List.mem_cons_self, List.mem_cons_self⟩
    · obtain ⟨part, hpart, hcpart⟩ := ih hc
      split
      · exact ⟨part, List.mem_cons_of_mem _ hpart, hcpart⟩
      · rcases List.mem_cons.mp hpart with rfl | hpart
        · exact ⟨x :: part, List.mem_cons_self, List.mem_cons_of_mem x hcpart⟩
        · exact ⟨part, List.mem_cons_of_mem _ hpart, hcpart⟩

theorem plain_of_isIdentifier {s : String} (h : isIdentifier s = true) : Plain s := by
  have hnot : ∀ c, continuesIdentifier c = false → c ∉ s.toList := fun c hc hmem =>
    Bool.false_ne_true (hc.symm.trans (continuesIdentifier_of_mem h hmem))
  exact ⟨hnot ' ' (by decide +kernel), hnot ',' (by decide +kernel), hnot '\n' (by decide +kernel)⟩

theorem plain_of_isDottedIdentifier {s : String} (h : isDottedIdentifier s = true) : Plain s := by
  have hnot : ∀ c, c ≠ '.' → continuesIdentifier c = false → c ∉ s.toList := by
    intro c hdot hc hmem
    obtain ⟨part, hpart, hcpart⟩ := exists_mem_splitOn hmem hdot
    have hident := List.all_eq_true.mp h part hpart
    have hcontinues := continuesIdentifier_of_mem hident (c := c) (by simpa using hcpart)
    exact Bool.false_ne_true (hc.symm.trans hcontinues)
  exact ⟨hnot ' ' (by decide) (by decide +kernel), hnot ',' (by decide) (by decide +kernel),
    hnot '\n' (by decide) (by decide +kernel)⟩

end Text

/-! ## Reading lines back -/

namespace Imports

/-- The line that imports names from a module. -/
def lineOf (module : String) (names : List String) : String :=
  "from " ++ module ++ " import " ++ ", ".intercalate names

/-- The module and the names of an import line. -/
def readLine (line : List Char) : Option (String × List String) :=
  match (line.splitOn ' ').map String.ofList with
  | "from" :: module :: "import" :: names =>
    some (module, names.map fun n => String.ofList (n.toList.filter (· != ',')))
  | _ => none

/-- The modules of a header, each with the names that it imports from there. -/
def read (header : String) : List (String × List String) :=
  (header.toList.splitOn '\n').filterMap readLine

/-- A header imports a name from a module. -/
def Lists (header module name : String) : Prop :=
  ∃ names, (module, names) ∈ read header ∧ name ∈ names

/-- Names with a comma after each but the last. -/
def withCommas : List String → List String
  | [] => []
  | [name] => [name]
  | name :: names => (name ++ ",") :: withCommas names

theorem withCommas_ne_nil {names : List String} (h : names ≠ []) : withCommas names ≠ [] := by
  fun_cases withCommas names with
  | case1 => exact absurd rfl h
  | case2 | case3 => exact List.cons_ne_nil _ _

theorem intercalate_withCommas (names : List String) :
    " ".intercalate (withCommas names) = ", ".intercalate names := by
  fun_induction withCommas names with
  | case1 => rfl
  | case2 name => rw [String.intercalate_singleton, String.intercalate_singleton]
  | case3 name names hne ih =>
    have hcomma : name ++ "," ++ " " = name ++ ", " := String.append_assoc
    rw [String.intercalate_cons_of_ne_nil (withCommas_ne_nil hne), ih,
      String.intercalate_cons_of_ne_nil hne, hcomma]

theorem not_mem_withCommas {names : List String} {c : Char} (hne : c ≠ ',')
    (h : ∀ n ∈ names, c ∉ n.toList) : ∀ n ∈ withCommas names, c ∉ n.toList := by
  fun_induction withCommas names with
  | case1 => exact h
  | case2 => exact h
  | case3 name names _ ih =>
    intro n hn
    rcases List.mem_cons.mp hn with rfl | hn
    · have hname := h name List.mem_cons_self
      simpa [hname] using hne
    · exact ih (fun n hn => h n (List.mem_cons_of_mem _ hn)) n hn

/-- Without its commas, each name is as it was. -/
theorem map_withCommas {names : List String} (h : ∀ n ∈ names, ',' ∉ n.toList) :
    (withCommas names).map (fun n => String.ofList (n.toList.filter (· != ','))) = names := by
  have hname : ∀ n : String, ',' ∉ n.toList → n.toList.filter (· != ',') = n.toList := by
    intro n hn
    refine List.filter_eq_self.mpr fun c hc => ?_
    simpa using fun heq : c = ',' => hn (heq ▸ hc)
  fun_induction withCommas names with
  | case1 => rfl
  | case2 name =>
    rw [List.map_singleton, hname name (h name List.mem_cons_self), String.ofList_toList]
  | case3 name names _ ih =>
    rw [List.map_cons, ih fun n hn => h n (List.mem_cons_of_mem _ hn), String.toList_append,
      List.filter_append, hname name (h name List.mem_cons_self)]
    simp

theorem lineOf_eq_intercalate (module : String) {names : List String} (h : names ≠ []) :
    lineOf module names = " ".intercalate ("from" :: module :: "import" :: withCommas names) := by
  rw [String.intercalate_cons_cons, String.intercalate_cons_cons,
    String.intercalate_cons_of_ne_nil (withCommas_ne_nil h), intercalate_withCommas, lineOf]
  simp only [String.append_assoc]
  rfl

theorem readLine_lineOf {module : String} {names : List String} (hmodule : Text.Plain module)
    (hne : names ≠ []) (hnames : ∀ n ∈ names, Text.Plain n) :
    readLine (lineOf module names).toList = some (module, names) := by
  have hwords : ∀ w ∈ ("from" :: module :: "import" :: withCommas names).map String.toList,
      ' ' ∉ w := by
    intro w hw
    obtain ⟨word, hword, rfl⟩ := List.mem_map.mp hw
    have hcommas := not_mem_withCommas (c := ' ') (by decide) fun n hn => (hnames n hn).1
    simp only [List.mem_cons] at hword
    rcases hword with rfl | rfl | rfl | hword
    · decide
    · exact hmodule.1
    · decide
    · exact hcommas word hword
  have hsplit : ((lineOf module names).toList.splitOn ' ').map String.ofList =
      "from" :: module :: "import" :: withCommas names := by
    rw [lineOf_eq_intercalate module hne, String.toList_intercalate]
    have hread := List.splitOn_intercalate ' ' hwords (by simp)
    refine (congrArg (List.map String.ofList) hread).trans ?_
    rw [List.map_map]
    exact List.map_id'' (fun _ => String.ofList_toList) _
  rw [readLine, hsplit]
  simp only [map_withCommas fun n hn => (hnames n hn).2.1]

theorem newline_not_mem_lineOf {module : String} {names : List String} (hmodule : Text.Plain module)
    (hnames : ∀ n ∈ names, Text.Plain n) : '\n' ∉ (lineOf module names).toList := by
  have hjoin : ∀ ns : List String, (∀ n ∈ ns, '\n' ∉ n.toList) →
      '\n' ∉ (", ".intercalate ns).toList := by
    intro ns hns
    induction ns with
    | nil => exact List.not_mem_nil
    | cons n ns ih =>
      have hn := hns n List.mem_cons_self
      by_cases hne : ns = []
      · rwa [hne, String.intercalate_singleton]
      · rw [String.intercalate_cons_of_ne_nil hne, String.toList_append, String.toList_append]
        simpa [hn] using ih fun n hn => hns n (List.mem_cons_of_mem _ hn)
  have hmodule := hmodule.2.2
  have hnames := hjoin names fun n hn => (hnames n hn).2.2
  simp only [lineOf, String.toList_append, List.mem_append, not_or]
  exact ⟨⟨⟨by decide, hmodule⟩, by decide⟩, hnames⟩

/-! ## The lines of a set of imports -/

variable {i j : Imports} {module name : String}

/-- The modules that have a line, each with the names on it. -/
def groups (i : Imports) : List (String × List String) :=
  i.modules.filterMap fun m =>
    match i.namesOf m with
    | [] => none
    | ns => some (m, ns)

/-- No registered name would end early on its line. -/
def Readable (i : Imports) : Prop := ∀ n ∈ i.names, Text.Plain n.module ∧ Text.Plain n.name

theorem lines_eq (i : Imports) : i.lines = i.groups.map fun g => lineOf g.1 g.2 := by
  rw [lines, groups, List.map_filterMap]
  congr 1
  funext m
  cases i.namesOf m <;> rfl

theorem mem_groups {names : List String} :
    (module, names) ∈ i.groups ↔ module ∈ i.modules ∧ i.namesOf module = names ∧ names ≠ [] := by
  rw [groups, List.mem_filterMap]
  constructor
  · rintro ⟨m, hm, hsome⟩
    cases hnames : i.namesOf m with
    | nil => simp [hnames] at hsome
    | cons n ns =>
      simp only [hnames, Option.some.injEq, Prod.mk.injEq] at hsome
      obtain ⟨rfl, rfl⟩ := hsome
      exact ⟨hm, hnames, List.cons_ne_nil n ns⟩
  · rintro ⟨hm, rfl, hne⟩
    refine ⟨module, hm, ?_⟩
    cases hnames : i.namesOf module with
    | nil => exact absurd hnames hne
    | cons n ns => rfl

theorem mem_featureNames :
    name ∈ i.featureNames module ↔ ∃ f, i.uses f = true ∧ f.imported = ⟨module, name⟩ := by
  rw [featureNames, List.mem_filterMap]
  simp only [List.mem_filter]
  constructor
  · rintro ⟨f, ⟨-, huses⟩, hname⟩
    split at hname
    · rename_i hmodule
      refine ⟨f, huses, ?_⟩
      rw [← Option.some.inj hname, ← beq_iff_eq.mp hmodule]
    · cases hname
  · rintro ⟨f, huses, himported⟩
    have hall : f ∈ Feature.lineOrder := by cases f <;> decide
    refine ⟨f, ⟨hall, huses⟩, ?_⟩
    rw [himported]
    exact if_pos (beq_self_eq_true module)

/-- The names on a module's line are those of its features in use, and those registered for it. -/
theorem mem_namesOf :
    name ∈ i.namesOf module ↔
      (∃ f, i.uses f = true ∧ f.imported = ⟨module, name⟩) ∨ ⟨module, name⟩ ∈ i.names := by
  have hothers : name ∈ (i.names.filter (·.module == module)).map (·.name) ↔
      ⟨module, name⟩ ∈ i.names := by
    simp only [List.mem_map, List.mem_filter, beq_iff_eq]
    constructor
    · rintro ⟨n, ⟨hn, rfl⟩, rfl⟩
      exact hn
    · exact fun hn => ⟨_, ⟨hn, rfl⟩, rfl⟩
  rw [namesOf, List.mem_append, List.mem_mergeSort, List.mem_filter, hothers, ← mem_featureNames,
    Bool.not_eq_true', List.contains_eq_mem, decide_eq_false_iff_not]
  tauto

theorem mem_extraModules : module ∈ i.extraModules ↔
    (∃ n ∈ i.names, n.module = module) ∧ module ∉ featureModules := by
  rw [extraModules, List.mem_mergeSort, List.mem_filter, List.mem_eraseDups, List.mem_map,
    Bool.not_eq_true', List.contains_eq_mem, decide_eq_false_iff_not]

theorem mem_modules : module ∈ i.modules ↔
    (∃ n ∈ i.names, n.module = module) ∨ module ∈ featureModules := by
  have hmodules : module ∈ i.modules ↔ module ∈ i.extraModules ∨ module ∈ featureModules := by
    simp only [modules, featureModules, List.mem_append, List.mem_cons, List.not_mem_nil, or_false]
    tauto
  rw [hmodules, mem_extraModules]
  by_cases h : module ∈ featureModules <;> simp [h]

theorem mem_modules_of_mem_namesOf (h : name ∈ i.namesOf module) : module ∈ i.modules := by
  rw [mem_modules]
  rcases mem_namesOf.mp h with ⟨f, -, himported⟩ | hname
  · have hmodule : f.imported.module ∈ featureModules := by cases f <;> decide
    rw [himported] at hmodule
    exact .inr hmodule
  · exact .inl ⟨_, hname, rfl⟩

theorem pairwise_extraModules (i : Imports) : i.extraModules.Pairwise (· < ·) :=
  pairwise_lt_mergeSort ((nodup_eraseDups _).filter _)

theorem nodup_modules (i : Imports) : i.modules.Nodup := by
  have hfixed : ∀ m ∈ featureModules, m ∉ i.extraModules := fun m hm h => (mem_extraModules.mp h).2 hm
  have htyping := hfixed "typing" (by decide)
  have hpydantic := hfixed "pydantic" (by decide)
  rw [modules, List.cons_append, List.nodup_cons, List.nodup_append]
  refine ⟨?_, i.pairwise_extraModules.nodup, by decide, ?_⟩
  · simpa using hfixed "enum" (by decide)
  · rintro a ha b hb rfl
    rcases List.mem_pair.mp hb with rfl | rfl
    · exact htyping ha
    · exact hpydantic ha

theorem groups_map_fst (i : Imports) :
    i.groups.map (·.1) = i.modules.filter fun m => !(i.namesOf m).isEmpty := by
  rw [groups, List.map_filterMap, ← List.filterMap_eq_filter]
  congr 1
  funext m
  cases hnames : i.namesOf m <;> simp [Option.guard, hnames]

theorem nodup_groups (i : Imports) : (i.groups.map (·.1)).Nodup := by
  rw [groups_map_fst]
  exact i.nodup_modules.filter _

/-! ## The header -/

namespace Readable

theorem plain_module (hi : i.Readable) (h : module ∈ i.modules) : Text.Plain module := by
  rcases mem_modules.mp h with ⟨n, hn, rfl⟩ | h
  · exact (hi n hn).1
  · have hplain : ∀ m ∈ featureModules, Text.Plain m := by
      unfold Text.Plain
      decide
    exact hplain module h

theorem plain_name (hi : i.Readable) (h : name ∈ i.namesOf module) : Text.Plain name := by
  rcases mem_namesOf.mp h with ⟨f, -, himported⟩ | hname
  · have hplain : Text.Plain f.imported.name := by
      unfold Text.Plain
      cases f <;> decide
    rwa [himported] at hplain
  · exact (hi _ hname).2

theorem plain_group (hi : i.Readable) {g : String × List String} (hg : g ∈ i.groups) :
    Text.Plain g.1 ∧ g.2 ≠ [] ∧ ∀ n ∈ g.2, Text.Plain n := by
  obtain ⟨m, ns⟩ := g
  obtain ⟨hm, rfl, hne⟩ := mem_groups.mp hg
  exact ⟨hi.plain_module hm, hne, fun n hn => hi.plain_name hn⟩

theorem readLine_group (hi : i.Readable) {g : String × List String} (hg : g ∈ i.groups) :
    readLine (lineOf g.1 g.2).toList = some g := by
  obtain ⟨hmodule, hne, hnames⟩ := hi.plain_group hg
  exact readLine_lineOf hmodule hne hnames

/-- The lines of a header are read as they were meant. -/
theorem read_header (hi : i.Readable) : read i.header = i.groups := by
  rw [read, header, lines_eq, String.toList_intercalate, List.map_map]
  by_cases hempty : i.groups = []
  · rw [hempty]
    rfl
  · have hnewline : ∀ line ∈ i.groups.map (String.toList ∘ fun g => lineOf g.1 g.2),
        '\n' ∉ line := by
      intro line hline
      obtain ⟨g, hg, rfl⟩ := List.mem_map.mp hline
      exact newline_not_mem_lineOf (hi.plain_group hg).1 (hi.plain_group hg).2.2
    have hsplit := List.splitOn_intercalate '\n' hnewline (by simpa using hempty)
    refine (congrArg (List.filterMap readLine) hsplit).trans ?_
    rw [List.filterMap_map]
    exact (List.filterMap_congr fun g hg => hi.readLine_group hg).trans List.filterMap_some

theorem lists_iff (hi : i.Readable) :
    Lists i.header module name ↔
      (∃ f, i.uses f = true ∧ f.imported = ⟨module, name⟩) ∨ ⟨module, name⟩ ∈ i.names := by
  rw [Lists, hi.read_header, ← mem_namesOf]
  constructor
  · rintro ⟨names, hgroup, hname⟩
    rwa [(mem_groups.mp hgroup).2.1]
  · intro hname
    exact ⟨_, mem_groups.mpr ⟨mem_modules_of_mem_namesOf hname, rfl, List.ne_nil_of_mem hname⟩, hname⟩

end Readable

/-- Import lines depend on nothing but the sets of features and of names. -/
theorem lines_congr (hfeatures : ∀ f, f ∈ i.features ↔ f ∈ j.features)
    (hnames : i.names.Perm j.names) : i.lines = j.lines := by
  have huses : i.uses = j.uses := by
    funext f
    rw [uses, uses, Bool.eq_iff_iff]
    simp [hfeatures]
  have hextra : i.extraModules = j.extraModules := by
    refine mergeSort_eq_of_perm (List.Perm.filter _ ?_)
    rw [List.perm_ext_iff_of_nodup (nodup_eraseDups _) (nodup_eraseDups _)]
    intro m
    rw [List.mem_eraseDups, List.mem_eraseDups]
    exact (hnames.map _).mem_iff
  have hnamesOf : i.namesOf = j.namesOf := by
    funext m
    have hfeature : i.featureNames m = j.featureNames m := by rw [featureNames, featureNames, huses]
    have hothers : ((i.names.filter (·.module == m)).map (·.name)).Perm
        ((j.names.filter (·.module == m)).map (·.name)) := (hnames.filter _).map _
    rw [namesOf, namesOf, hfeature, mergeSort_eq_of_perm (hothers.filter _)]
  rw [lines, lines, modules, modules, hextra, hnamesOf]

theorem header_congr (hfeatures : ∀ f, f ∈ i.features ↔ f ∈ j.features)
    (hnames : i.names.Perm j.names) : i.header = j.header := by
  rw [header, header, lines_congr hfeatures hnames]

end Imports

end SchemaModels
