import Mathlib.Data.List.Basic
import SchemaModels.Text.Lines

/-! # Texts cut at separators

A text can be cut at the first occurrence of a separator (`cutAt?`), or at all of them (`splitAt`). Parts
joined by a separator come back if no occurrence of it begins inside a part (`Passes`). Runs of newlines
are separators of this kind for texts made of lines without breaks. -/

namespace SchemaModels.Text

/-! ## Cutting -/

/-- What stands before and after the first occurrence of a separator. -/
def cut? (sep : List Char) : List Char → Option (List Char × List Char)
  | [] => none
  | c :: cs =>
    if sep ≠ [] ∧ sep <+: c :: cs then some ([], (c :: cs).drop sep.length)
    else (cut? sep cs).map fun p => (c :: p.1, p.2)

theorem length_lt_of_cut? {sep cs before after : List Char} (h : cut? sep cs = some (before, after)) :
    after.length < cs.length := by
  induction cs generalizing before with
  | nil => cases h
  | cons c cs ih =>
    rw [cut?] at h
    split at h
    case isTrue hsep =>
      have hpos := List.length_pos_of_ne_nil hsep.1
      cases h
      rw [List.length_drop, List.length_cons]
      omega
    case isFalse =>
      obtain ⟨⟨before', after'⟩, hrest, heq⟩ := Option.map_eq_some_iff.mp h
      cases heq
      exact Nat.lt_succ_of_lt (ih hrest)

/-- What stands between the occurrences of a separator, from the first on. -/
def parts (sep cs : List Char) : List (List Char) :=
  match h : cut? sep cs with
  | none => [cs]
  | some (before, after) =>
    have := length_lt_of_cut? h
    before :: parts sep after
termination_by cs.length

theorem parts_of_none {sep cs : List Char} (h : cut? sep cs = none) : parts sep cs = [cs] := by
  rw [parts]
  split
  · rfl
  · rename_i hsome
    cases h.symm.trans hsome

theorem parts_of_some {sep cs before after : List Char} (h : cut? sep cs = some (before, after)) :
    parts sep cs = before :: parts sep after := by
  rw [parts]
  split
  · rename_i hnone
    cases h.symm.trans hnone
  · rename_i hsome
    cases h.symm.trans hsome
    rfl

/-- The text before the first occurrence of a separator, and the text after it. -/
def cutAt? (sep s : String) : Option (String × String) :=
  (cut? sep.toList s.toList).map fun p => (String.ofList p.1, String.ofList p.2)

/-- The texts between the occurrences of a separator. -/
def splitAt (sep s : String) : List String := (parts sep.toList s.toList).map String.ofList

/-! ## Parts that come back -/

/-- No occurrence of a separator begins inside a part, whatever stands after it. -/
def Passes (sep part : List Char) : Prop :=
  ∀ rest, cut? sep (part ++ rest) = (cut? sep rest).map fun p => (part ++ p.1, p.2)

section

variable {sep part : List Char}

theorem Passes.nil (sep : List Char) : Passes sep [] := fun _ => Option.map_id'.symm

theorem Passes.append {part' : List Char} (h : Passes sep part) (h' : Passes sep part') :
    Passes sep (part ++ part') := by
  intro rest
  rw [List.append_assoc, h, h', Option.map_map]
  simp only [Function.comp_def, List.append_assoc]

theorem Passes.cons_of_not_prefix {c : Char} (h : ∀ rest, ¬sep <+: c :: (part ++ rest))
    (hpart : Passes sep part) : Passes sep (c :: part) := by
  intro rest
  rw [List.cons_append, cut?, if_neg fun hsep => h rest hsep.2, hpart, Option.map_map]
  rfl

theorem Passes.cut?_eq_none (h : Passes sep part) : cut? sep part = none := by
  have hend := h []
  rwa [List.append_nil] at hend

theorem cut?_append_self (hsep : sep ≠ []) (rest : List Char) :
    cut? sep (sep ++ rest) = some ([], rest) := by
  cases sep with
  | nil => exact absurd rfl hsep
  | cons c cs =>
    have hprefix : c :: cs <+: c :: (cs ++ rest) := List.prefix_append (c :: cs) rest
    rw [List.cons_append, cut?, if_pos ⟨hsep, hprefix⟩, ← List.cons_append, List.drop_left]

theorem Passes.cut?_append (h : Passes sep part) (hsep : sep ≠ []) (rest : List Char) :
    cut? sep (part ++ (sep ++ rest)) = some (part, rest) := by
  rw [h, cut?_append_self hsep, Option.map_some, List.append_nil]

/-- Parts come back from the text in which separators stand between them. -/
theorem parts_intercalate (hsep : sep ≠ []) {ps : List (List Char)} (hne : ps ≠ [])
    (h : ∀ p ∈ ps, Passes sep p) : parts sep (sep.intercalate ps) = ps := by
  induction ps with
  | nil => exact absurd rfl hne
  | cons p ps ih =>
    have hp := h p List.mem_cons_self
    by_cases hrest : ps = []
    · rw [hrest, List.intercalate_singleton, parts_of_none hp.cut?_eq_none]
    · rw [List.intercalate_cons_of_ne_nil hrest, List.append_assoc,
        parts_of_some (hp.cut?_append hsep _), ih hrest fun q hq => h q (List.mem_cons_of_mem p hq)]

end

theorem splitAt_intercalate {sep : String} (hsep : sep ≠ "") {ps : List String} (hne : ps ≠ [])
    (h : ∀ p ∈ ps, Passes sep.toList p.toList) : splitAt sep (sep.intercalate ps) = ps := by
  have hparts : parts sep.toList (sep.toList.intercalate (ps.map String.toList)) =
      ps.map String.toList := by
    refine parts_intercalate (by simpa using hsep) (by simpa using hne) fun p hp => ?_
    obtain ⟨s, hs, rfl⟩ := List.mem_map.mp hp
    exact h s hs
  rw [splitAt, String.toList_intercalate, hparts, List.map_map]
  exact List.map_id'' (fun _ => String.ofList_toList) ps

theorem cutAt?_append {sep before : String} (hsep : sep ≠ "") (h : Passes sep.toList before.toList)
    (after : String) : cutAt? sep (before ++ sep ++ after) = some (before, after) := by
  rw [cutAt?, String.toList_append, String.toList_append, List.append_assoc,
    h.cut?_append (by simpa using hsep)]
  simp

theorem cutAt?_eq_none {sep s : String} (h : Passes sep.toList s.toList) : cutAt? sep s = none := by
  rw [cutAt?, h.cut?_eq_none, Option.map_none]

/-! ## Runs of newlines -/

/-- A run of newlines as a separator. -/
def newlines (n : Nat) : List Char := List.replicate n '\n'

section

variable {n k : Nat} {c : Char} {line : List Char}

theorem not_newlines_prefix (hk : k < n) (hc : c ≠ '\n') (rest : List Char) :
    ¬newlines n <+: newlines k ++ c :: rest := by
  induction k generalizing n with
  | zero =>
    obtain ⟨n, rfl⟩ := Nat.exists_eq_add_one_of_ne_zero (Nat.ne_of_gt hk)
    intro hprefix
    exact hc (List.cons_prefix_cons.mp hprefix).1.symm
  | succ k ih =>
    obtain ⟨n, rfl⟩ := Nat.exists_eq_add_one_of_ne_zero (Nat.ne_of_gt (Nat.zero_lt_of_lt hk))
    intro hprefix
    exact ih (Nat.lt_of_succ_lt_succ hk) (List.cons_prefix_cons.mp hprefix).2

/-- A shorter run of newlines does not separate, if something else comes after it. -/
theorem passes_newlines_cons (hk : k < n) (hc : c ≠ '\n') :
    Passes (newlines n) (newlines k ++ [c]) := by
  induction k with
  | zero =>
    refine Passes.cons_of_not_prefix (fun rest => ?_) (.nil _)
    exact not_newlines_prefix hk hc rest
  | succ k ih =>
    change Passes (newlines n) ('\n' :: (newlines k ++ [c]))
    refine Passes.cons_of_not_prefix (fun rest => ?_) (ih (Nat.lt_of_succ_lt hk))
    rw [List.append_assoc]
    exact not_newlines_prefix hk hc rest

theorem passes_line (hn : 0 < n) (hline : '\n' ∉ line) : Passes (newlines n) line := by
  induction line with
  | nil => exact .nil _
  | cons c line ih =>
    rw [List.mem_cons, not_or] at hline
    exact (passes_newlines_cons hn (Ne.symm hline.1)).append (ih hline.2)

/-- A line passes together with a shorter run of newlines in front of it. -/
theorem passes_newlines_line (hk : k < n) (hne : line ≠ []) (hline : '\n' ∉ line) :
    Passes (newlines n) (newlines k ++ line) := by
  obtain ⟨c, cs, rfl⟩ := List.exists_cons_of_ne_nil hne
  rw [List.mem_cons, not_or] at hline
  have hfirst := passes_newlines_cons hk (Ne.symm hline.1)
  have hrest := passes_line (Nat.zero_lt_of_lt hk) hline.2
  simpa using hfirst.append hrest

end

/-! ## Lines -/

/-- A text without line breaks. -/
def Unbroken (s : String) : Prop := ∀ c ∈ s.toList, isLineBreak c = false

instance (s : String) : Decidable (Unbroken s) := List.decidableBAll _ s.toList

/-- A text of at least one character, without line breaks. -/
structure IsLine (s : String) : Prop where
  ne_empty : s ≠ ""
  unbroken : Unbroken s

instance (s : String) : Decidable (IsLine s) :=
  decidable_of_iff (s ≠ "" ∧ Unbroken s) ⟨fun h => ⟨h.1, h.2⟩, fun h => ⟨h.ne_empty, h.unbroken⟩⟩

@[simp] theorem unbroken_append {s t : String} : Unbroken (s ++ t) ↔ Unbroken s ∧ Unbroken t := by
  simp only [Unbroken, String.toList_append, List.forall_mem_append]

theorem unbroken_intercalate {sep : String} {ss : List String} (hsep : Unbroken sep)
    (h : ∀ s ∈ ss, Unbroken s) : Unbroken (sep.intercalate ss) := by
  induction ss with
  | nil => exact nofun
  | cons s ss ih =>
    have hs := h s List.mem_cons_self
    by_cases hrest : ss = []
    · rwa [hrest, String.intercalate_singleton]
    · rw [String.intercalate_cons_of_ne_nil hrest]
      have htail := ih fun t ht => h t (List.mem_cons_of_mem s ht)
      exact unbroken_append.mpr ⟨unbroken_append.mpr ⟨hs, hsep⟩, htail⟩

theorem Unbroken.newline_not_mem {s : String} (h : Unbroken s) : '\n' ∉ s.toList := fun hmem =>
  Bool.false_ne_true (h '\n' hmem).symm

theorem Unbroken.getLast?_ne {s : String} (h : Unbroken s) : s.toList.getLast? ≠ some '\n' :=
  fun hlast => h.newline_not_mem (List.mem_of_getLast? hlast)

section

variable {lines : List String}

@[simp] theorem joinLines_singleton (l : String) : joinLines [l] = l := String.intercalate_singleton

theorem toList_joinLines_cons (l : String) (hne : lines ≠ []) :
    (joinLines (l :: lines)).toList = l.toList ++ '\n' :: (joinLines lines).toList := by
  rw [joinLines, String.intercalate_cons_of_ne_nil hne, String.toList_append, String.toList_append,
    List.append_assoc]
  rfl

/-- Lines come back from the text in which they stand. -/
theorem splitAt_newline (hne : lines ≠ []) (h : ∀ l ∈ lines, Unbroken l) :
    splitAt "\n" (joinLines lines) = lines :=
  splitAt_intercalate (by decide) hne fun l hl =>
    passes_line (n := 1) Nat.one_pos (h l hl).newline_not_mem

/-- No blank line stands among lines, nor does a shorter run of newlines in front of them separate. -/
theorem passes_newlines_joinLines {n k : Nat} (hn : 1 < n) (hk : k < n) (hne : lines ≠ [])
    (h : ∀ l ∈ lines, IsLine l) : Passes (newlines n) (newlines k ++ (joinLines lines).toList) := by
  induction lines generalizing k with
  | nil => exact absurd rfl hne
  | cons l lines ih =>
    have hl := h l List.mem_cons_self
    have hline : Passes (newlines n) (newlines k ++ l.toList) :=
      passes_newlines_line hk (by simpa using hl.ne_empty) hl.unbroken.newline_not_mem
    by_cases hrest : lines = []
    · rwa [hrest, joinLines_singleton]
    · have htail := ih hn hrest fun x hx => h x (List.mem_cons_of_mem l hx)
      rw [toList_joinLines_cons l hrest, ← List.append_assoc]
      exact hline.append htail

theorem passes_joinLines {n : Nat} (hn : 1 < n) (h : ∀ l ∈ lines, IsLine l) :
    Passes (newlines n) (joinLines lines).toList := by
  by_cases hne : lines = []
  · rw [hne]
    exact .nil _
  · exact passes_newlines_joinLines hn (Nat.zero_lt_of_lt hn) hne h

theorem joinLines_ne_empty (hne : lines ≠ []) (h : ∀ l ∈ lines, IsLine l) : joinLines lines ≠ "" := by
  obtain ⟨l, lines, rfl⟩ := List.exists_cons_of_ne_nil hne
  have hl := (h l List.mem_cons_self).ne_empty
  by_cases hrest : lines = []
  · rwa [hrest, joinLines_singleton]
  · have hcons : (joinLines (l :: lines)).toList ≠ [] := by
      rw [toList_joinLines_cons l hrest]
      simp
    simpa using hcons

/-! ## Line breaks -/

theorem linesFrom_newline (line cs : List Char) :
    linesFrom line ('\n' :: cs) = line.reverse :: linesFrom [] cs := by
  have hbreak : isLineBreak '\n' = true := rfl
  rw [linesFrom, if_pos hbreak]
  nofun

theorem linesFrom_append {cs : List Char} (h : ∀ c ∈ cs, isLineBreak c = false)
    (line rest : List Char) : linesFrom line (cs ++ rest) = linesFrom (cs.reverse ++ line) rest := by
  induction cs generalizing line with
  | nil => rfl
  | cons c cs ih =>
    have hc := h c List.mem_cons_self
    have hstep : linesFrom line (c :: (cs ++ rest)) = linesFrom (c :: line) (cs ++ rest) := by
      rw [linesFrom, if_neg (by simp [hc])]
      rintro - rfl
      cases hc
    rw [List.cons_append, hstep, ih fun x hx => h x (List.mem_cons_of_mem c hx), List.reverse_cons,
      List.append_assoc, List.singleton_append]

theorem linesFrom_end {line : List Char} (h : line ≠ []) : linesFrom line [] = [line.reverse] := by
  rw [linesFrom]
  exact h

/-- The breaks between lines are the only ones. -/
theorem splitLines_joinLines (h : ∀ l ∈ lines, IsLine l) : splitLines (joinLines lines) = lines := by
  induction lines with
  | nil => rfl
  | cons l lines ih =>
    have hl := h l List.mem_cons_self
    have hne : l.toList.reverse ≠ [] := by simpa using hl.ne_empty
    by_cases hrest : lines = []
    · have hend := linesFrom_append hl.unbroken [] []
      rw [List.append_nil, List.append_nil, linesFrom_end hne, List.reverse_reverse] at hend
      rw [hrest, joinLines_singleton, splitLines, hend, List.map_singleton, String.ofList_toList]
    · have htail := ih fun x hx => h x (List.mem_cons_of_mem l hx)
      rw [splitLines] at htail
      rw [splitLines, toList_joinLines_cons l hrest, linesFrom_append hl.unbroken, List.append_nil,
        linesFrom_newline, List.map_cons, htail, List.reverse_reverse, String.ofList_toList]

/-! ## Newlines at the end -/

theorem trimNewlines_append {s t : String} (hs : s.toList.getLast? ≠ some '\n')
    (ht : t.toList.all (· == '\n') = true) : trimNewlines (s ++ t) = s := by
  have hdrop : ∀ c ∈ t.toList.reverse, (c == '\n') = true := by simpa using ht
  -- the last character is the first one from behind, and there the dropping stops
  have hkeep : s.toList.reverse.dropWhile (· == '\n') = s.toList.reverse := by
    rw [← List.head?_reverse] at hs
    cases hrev : s.toList.reverse with
    | nil => rfl
    | cons c cs =>
      rw [hrev] at hs
      have hc : c ≠ '\n' := fun heq => hs (congrArg some heq)
      exact List.dropWhile_cons_of_neg (by simpa using hc)
  rw [trimNewlines, String.toList_append, List.reverse_append, List.dropWhile_append_of_pos hdrop,
    hkeep, List.reverse_reverse, String.ofList_toList]

theorem getLast?_joinLines (h : ∀ l ∈ lines, IsLine l) :
    (joinLines lines).toList.getLast? ≠ some '\n' := by
  induction lines with
  | nil => nofun
  | cons l lines ih =>
    have hl := h l List.mem_cons_self
    by_cases hrest : lines = []
    · rw [hrest, joinLines_singleton]
      exact hl.unbroken.getLast?_ne
    · have htail : ∀ x ∈ lines, IsLine x := fun x hx => h x (List.mem_cons_of_mem l hx)
      have hne : (joinLines lines).toList ≠ [] := by simpa using joinLines_ne_empty hrest htail
      rw [toList_joinLines_cons l hrest, List.getLast?_append_of_ne_nil _ (List.cons_ne_nil _ _),
        List.getLast?_cons_of_ne_nil hne]
      exact ih htail

theorem trimNewlines_joinLines (h : ∀ l ∈ lines, IsLine l) :
    trimNewlines (joinLines lines) = joinLines lines := by
  have htrim := trimNewlines_append (t := "") (getLast?_joinLines h) rfl
  rwa [String.append_empty] at htrim

end

end SchemaModels.Text
