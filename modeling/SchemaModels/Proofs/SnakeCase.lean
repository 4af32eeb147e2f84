import Mathlib.Data.List.Basic
import SchemaModels.Text.SnakeCase

/-! # The words of a text

The words of a text hold its ASCII letters and digits, all of them and in order (`flatten_words`). In
snake case they stand in small letters with underscores between them, so two texts have the same snake
case exactly if they have the same words up to the case of letters (`snakeCase_eq_iff`). -/

namespace SchemaModels.Text

/-! ## The length of a word -/

section

variable {p : Char → Bool} {c : Char} {cs : List Char}

theorem mem_take_runLength (h : c ∈ cs.take (runLength p cs)) : p c = true := by
  rw [runLength, ← List.prefix_iff_eq_take.mp (List.takeWhile_prefix p)] at h
  exact List.all_eq_true.mp List.all_takeWhile c h

theorem runLength_pos (h : p c = true) : 0 < runLength p (c :: cs) := by
  rw [runLength, List.takeWhile_cons_of_pos h]
  exact Nat.succ_pos _

theorem isAlphanum_eq (c : Char) : c.isAlphanum = (c.isUpper || c.isLower || c.isDigit) := rfl

theorem isAlphanum_of_isUpper (h : c.isUpper = true) : c.isAlphanum = true := by
  simp [isAlphanum_eq, h]

theorem isAlphanum_of_isLowerOrDigit (h : isLowerOrDigit c = true) : c.isAlphanum = true := by
  rcases Bool.or_eq_true_iff.mp h with h | h <;> simp [isAlphanum_eq, h]

theorem isAlphanum_of_isUpperOrDigit (h : isUpperOrDigit c = true) : c.isAlphanum = true := by
  rcases Bool.or_eq_true_iff.mp h with h | h <;> simp [isAlphanum_eq, h]

/-- A word is made of letters and digits. -/
theorem isAlphanum_of_mem_take_wordLength (h : c ∈ cs.take (wordLength cs)) :
    c.isAlphanum = true := by
  unfold wordLength at h
  dsimp only at h
  split_ifs at h with hnone hcapitals hcapital
  · exact isAlphanum_of_isLowerOrDigit (mem_take_runLength h)
  · have hmem := List.take_subset_take_left cs (Nat.sub_le (runLength Char.isUpper cs) 1) h
    exact isAlphanum_of_isUpper (mem_take_runLength hmem)
  · rw [Bool.and_eq_true, decide_eq_true_eq] at hcapital
    rw [List.take_add, List.mem_append] at h
    rcases h with h | h
    · rw [← hcapital.1] at h
      exact isAlphanum_of_isUpper (mem_take_runLength h)
    · rw [hcapital.1] at h
      exact isAlphanum_of_isLowerOrDigit (mem_take_runLength h)
  · exact isAlphanum_of_isUpperOrDigit (mem_take_runLength h)

/-- A word starts at every letter and digit. -/
theorem wordLength_pos (h : c.isAlphanum = true) : 0 < wordLength (c :: cs) := by
  unfold wordLength
  dsimp only
  cases hupper : c.isUpper with
  | true =>
    have hcapitals : 0 < runLength Char.isUpper (c :: cs) := runLength_pos hupper
    have hrun : 0 < runLength isUpperOrDigit (c :: cs) :=
      runLength_pos (by simp [isUpperOrDigit, hupper])
    rw [if_neg (by omega)]
    split_ifs with htwo
    · rw [Bool.and_eq_true, decide_eq_true_eq] at htwo
      omega
    · omega
    · exact hrun
  | false =>
    have hcapitals : runLength Char.isUpper (c :: cs) = 0 := by
      rw [runLength, List.takeWhile_cons_of_neg (Bool.not_eq_true _ ▸ hupper), List.length_nil]
    rw [if_pos hcapitals]
    refine runLength_pos ?_
    simpa [isLowerOrDigit, isAlphanum_eq, hupper] using h

end

/-! ## Words -/

/-- The words hold the letters and digits of a text, in order. -/
theorem flatten_wordsAfter (skip : Nat) (cs : List Char) :
    (wordsAfter skip cs).flatten = (cs.drop skip).filter Char.isAlphanum := by
  fun_induction wordsAfter skip cs with
  | case1 => simp
  | case2 skip c cs ih => exact ih
  | case3 c cs hword ih =>
    have hc : ¬c.isAlphanum = true := by
      intro h
      have hpos : 0 < wordLength (c :: cs) := wordLength_pos h
      omega
    rw [ih, List.drop_zero, List.drop_zero, List.filter_cons_of_neg hc]
  | case4 c cs n hword ih =>
    have htaken : ∀ x ∈ c :: cs.take n, x.isAlphanum = true := by
      intro x hx
      have htake : c :: cs.take n = (c :: cs).take (wordLength (c :: cs)) := by
        rw [hword]
        rfl
      exact isAlphanum_of_mem_take_wordLength (htake ▸ hx)
    have hsplit : c :: cs = (c :: cs.take n) ++ cs.drop n :=
      congrArg (c :: ·) (List.take_append_drop n cs).symm
    rw [List.flatten_cons, ih, List.drop_zero]
    conv_rhs => rw [hsplit, List.filter_append, List.filter_eq_self.mpr htaken]

theorem flatten_words (cs : List Char) : (words cs).flatten = cs.filter Char.isAlphanum :=
  flatten_wordsAfter 0 cs

theorem ne_nil_of_mem_wordsAfter {skip : Nat} {cs w : List Char} (h : w ∈ wordsAfter skip cs) :
    w ≠ [] := by
  fun_induction wordsAfter skip cs with
  | case1 => cases h
  | case2 skip c cs ih => exact ih h
  | case3 c cs hword ih => exact ih h
  | case4 c cs n hword ih =>
    rcases List.mem_cons.mp h with rfl | h
    · exact List.cons_ne_nil _ _
    · exact ih h

theorem isAlphanum_of_mem_words {cs w : List Char} (h : w ∈ words cs) {c : Char} (hc : c ∈ w) :
    c.isAlphanum = true := by
  have hmem : c ∈ (words cs).flatten := List.mem_flatten.mpr ⟨w, h, hc⟩
  rw [flatten_words, List.mem_filter] at hmem
  exact hmem.2

/-! ## Small letters -/

theorem isLower_toLower {c : Char} (h : c.isUpper = true) : c.toLower.isLower = true := by
  have hrange : c.val ≥ 'A'.val ∧ c.val ≤ 'Z'.val := of_decide_eq_true h
  have hval : c.toLower.val = c.val + ('a'.val - 'A'.val) := congrArg Char.val (dif_pos hrange)
  change (decide (c.toLower.val ≥ 'a'.val) && decide (c.toLower.val ≤ 'z'.val)) = true
  rw [hval, Bool.and_eq_true, decide_eq_true_eq, decide_eq_true_eq]
  simp only [ge_iff_le, UInt32.le_iff_toNat_le, UInt32.toNat_add] at hrange ⊢
  simp at hrange ⊢
  omega

theorem toLower_of_not_isUpper {c : Char} (h : c.isUpper = false) : c.toLower = c := by
  have hrange : ¬(c.val ≥ 'A'.val ∧ c.val ≤ 'Z'.val) := of_decide_eq_false h
  exact dif_neg hrange

@[simp] theorem isAlpha_toLower (c : Char) : c.toLower.isAlpha = c.isAlpha := by
  cases h : c.isUpper with
  | true =>
    have halpha : c.isAlpha = true := Bool.or_eq_true_iff.mpr (.inl h)
    have hlower : c.toLower.isAlpha = true := Bool.or_eq_true_iff.mpr (.inr (isLower_toLower h))
    rw [halpha, hlower]
  | false => rw [toLower_of_not_isUpper h]

@[simp] theorem isAlphanum_toLower (c : Char) : c.toLower.isAlphanum = c.isAlphanum := by
  cases h : c.isUpper with
  | true => simp [isAlphanum_eq, h, isLower_toLower h]
  | false => rw [toLower_of_not_isUpper h]

/-! ## Joined words -/

/-- The words of a text in small letters. -/
def lowerWords (s : String) : List (List Char) := (words s.toList).map fun w => w.map Char.toLower

theorem toList_snakeCase (s : String) : (snakeCase s).toList = joinWords (lowerWords s) :=
  String.toList_ofList

theorem flatten_lowerWords (s : String) :
    (lowerWords s).flatten = (s.toList.filter Char.isAlphanum).map Char.toLower := by
  rw [lowerWords, ← List.map_flatten, flatten_words]

/-- Words as they stand between underscores. -/
def AreWords (ws : List (List Char)) : Prop := ∀ w ∈ ws, w ≠ [] ∧ ∀ c ∈ w, c.isAlphanum = true

theorem areWords_lowerWords (s : String) : AreWords (lowerWords s) := by
  intro w hw
  obtain ⟨v, hv, rfl⟩ := List.mem_map.mp hw
  refine ⟨mt List.map_eq_nil_iff.mp (ne_nil_of_mem_wordsAfter hv), fun c hc => ?_⟩
  obtain ⟨x, hx, rfl⟩ := List.mem_map.mp hc
  exact (isAlphanum_toLower x).trans (isAlphanum_of_mem_words hv hx)

theorem joinWords_cons {w : List Char} {ws : List (List Char)} (h : ws ≠ []) :
    joinWords (w :: ws) = w ++ '_' :: joinWords ws := by
  rw [joinWords, List.intercalate_cons_of_ne_nil h, List.append_assoc]
  rfl

section

variable {ws vs : List (List Char)}

theorem joinWords_ne_nil (hws : AreWords ws) (h : ws ≠ []) : joinWords ws ≠ [] := by
  cases ws with
  | nil => exact absurd rfl h
  | cons w ws =>
    have hw := (hws w List.mem_cons_self).1
    by_cases hrest : ws = []
    · rwa [hrest, joinWords, List.intercalate_singleton]
    · rw [joinWords_cons hrest]
      exact List.append_ne_nil_of_left_ne_nil hw _

/-- Joined words start as the first of them does. -/
theorem head?_joinWords (hws : AreWords ws) : (joinWords ws).head? = ws.flatten.head? := by
  cases ws with
  | nil => rfl
  | cons w ws =>
    have hw := (hws w List.mem_cons_self).1
    rw [List.flatten_cons, List.head?_append_of_ne_nil _ hw]
    by_cases hrest : ws = []
    · rw [hrest, joinWords, List.intercalate_singleton]
    · rw [joinWords_cons hrest, List.head?_append_of_ne_nil _ hw]

/-- Joined words end as the last of them does. -/
theorem getLast?_joinWords (hws : AreWords ws) : (joinWords ws).getLast? = ws.flatten.getLast? := by
  induction ws with
  | nil => rfl
  | cons w ws ih =>
    by_cases hrest : ws = []
    · rw [hrest, joinWords, List.intercalate_singleton, List.flatten_singleton]
    · have htail : AreWords ws := fun v hv => hws v (List.mem_cons_of_mem w hv)
      have hjoin := joinWords_ne_nil htail hrest
      have hflat : ws.flatten ≠ [] := by
        intro hnil
        rw [← List.getLast?_eq_none_iff, ← ih htail, List.getLast?_eq_none_iff] at hnil
        exact hjoin hnil
      rw [joinWords_cons hrest, List.flatten_cons, List.getLast?_append_of_ne_nil _ hflat,
        List.getLast?_append_of_ne_nil _ (List.cons_ne_nil _ _), ← ih htail,
        List.getLast?_cons_of_ne_nil hjoin]

theorem mem_joinWords {c : Char} (hws : AreWords ws) (h : c ∈ joinWords ws) :
    c = '_' ∨ c.isAlphanum = true := by
  induction ws with
  | nil => cases h
  | cons w ws ih =>
    have hw := (hws w List.mem_cons_self).2
    by_cases hrest : ws = []
    · rw [hrest, joinWords, List.intercalate_singleton] at h
      exact .inr (hw c h)
    · rw [joinWords_cons hrest, List.mem_append, List.mem_cons] at h
      rcases h with h | h | h
      · exact .inr (hw c h)
      · exact .inl h
      · exact ih (fun v hv => hws v (List.mem_cons_of_mem w hv)) h

/-- Words can be told from how they are joined. -/
theorem joinWords_injective (hws : AreWords ws) (hvs : AreWords vs) (h : joinWords ws = joinWords vs) :
    ws = vs := by
  -- no word holds an underscore, so splitting at underscores gives the words back
  have hsplit : ∀ {us}, AreWords us → us ≠ [] → (joinWords us).splitOn '_' = us := by
    intro us hus hne
    refine List.splitOn_intercalate '_' (fun u hu hmem => ?_) hne
    exact Bool.false_ne_true ((hus u hu).2 '_' hmem)
  by_cases hempty : ws = []
  · subst hempty
    by_contra hne
    exact joinWords_ne_nil hvs (Ne.symm hne) h.symm
  · have hother : vs ≠ [] := by
      rintro rfl
      exact joinWords_ne_nil hws hempty h
    rw [← hsplit hws hempty, ← hsplit hvs hother, h]

end

/-! ## Snake case -/

/-- Texts have the same snake case exactly if they have the same words, up to the case of letters. -/
theorem snakeCase_eq_iff {s t : String} : snakeCase s = snakeCase t ↔ lowerWords s = lowerWords t := by
  constructor
  · intro h
    have hjoin := congrArg String.toList h
    rw [toList_snakeCase, toList_snakeCase] at hjoin
    exact joinWords_injective (areWords_lowerWords s) (areWords_lowerWords t) hjoin
  · intro h
    rw [← String.toList_inj, toList_snakeCase, toList_snakeCase, h]

theorem mem_snakeCase {s : String} {c : Char} (h : c ∈ (snakeCase s).toList) :
    c = '_' ∨ c.isAlphanum = true := by
  rw [toList_snakeCase] at h
  exact mem_joinWords (areWords_lowerWords s) h

theorem head?_snakeCase (s : String) :
    (snakeCase s).toList.head? = (s.toList.filter Char.isAlphanum).head?.map Char.toLower := by
  rw [toList_snakeCase, head?_joinWords (areWords_lowerWords s), flatten_lowerWords, List.head?_map]

/-- Snake case does not end in an underscore. -/
theorem snakeCase_ne_append_underscore (s t : String) : snakeCase s ≠ t ++ "_" := by
  intro h
  have hlast : (snakeCase s).toList.getLast? = some '_' := by
    rw [h, String.toList_append]
    exact List.getLast?_concat
  rw [toList_snakeCase, getLast?_joinWords (areWords_lowerWords s), flatten_lowerWords,
    List.getLast?_map, Option.map_eq_some_iff] at hlast
  obtain ⟨c, hc, hlower⟩ := hlast
  have halpha : c.isAlphanum = true := (List.mem_filter.mp (List.mem_of_getLast? hc)).2
  rw [← isAlphanum_toLower, hlower] at halpha
  cases halpha

end SchemaModels.Text
