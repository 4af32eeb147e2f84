import SchemaModels.Proofs.Text.FirstWord

/-! # Word boundaries

A separator ends a word whatever stands around it (`words_append_separator`), so the snake case of a text
is put together from those of its parts. Snake case leaves a text as it is exactly if the text is empty or
small words with underscores between them. -/

namespace SchemaModels.Text

/-! ## Separators -/

/-- No word reaches over a separator. -/
theorem words_append_separator (a b : List Char) {c : Char} (hc : c.isAlphanum = false) :
    words (a ++ c :: b) = words a ++ words b := by
  induction a using scan_induction with
  | nil => exact words_cons_of_separator hc b
  | separator x xs hx ih =>
    rw [List.cons_append, words_cons_of_separator hx, words_cons_of_separator hx, ih]
  | word w r hword ih =>
    rw [List.append_assoc, (hword.append_separator hc b).words_append, ih, hword.words_append,
      List.cons_append]

theorem joinWords_cons_eq (y : List Char) (ys : List (List Char)) :
    joinWords (y :: ys) = y ++ ys.flatMap ('_' :: ·) := by
  induction ys generalizing y with
  | nil => exact List.intercalate_singleton.trans (List.append_nil y).symm
  | cons z zs ih =>
    rw [joinWords_cons (List.cons_ne_nil _ _), ih, List.flatMap_cons, List.cons_append]

theorem joinWords_append {xs ys : List (List Char)} (hxs : xs ≠ []) (hys : ys ≠ []) :
    joinWords (xs ++ ys) = joinWords xs ++ '_' :: joinWords ys := by
  obtain ⟨x, xs, rfl⟩ := List.exists_cons_of_ne_nil hxs
  obtain ⟨y, ys, rfl⟩ := List.exists_cons_of_ne_nil hys
  rw [List.cons_append, joinWords_cons_eq, joinWords_cons_eq, joinWords_cons_eq, List.flatMap_append,
    List.flatMap_cons, List.append_assoc, List.cons_append]

theorem lowerWords_append_separator (a b : String) {c : Char} (hc : c.isAlphanum = false) :
    lowerWords (a ++ String.singleton c ++ b) = lowerWords a ++ lowerWords b := by
  rw [lowerWords, String.toList_append, String.toList_append, String.toList_singleton,
    List.append_assoc, List.singleton_append, words_append_separator _ _ hc, List.map_append]
  rfl

theorem snakeCase_eq_empty_iff {s : String} : snakeCase s = "" ↔ lowerWords s = [] := by
  rw [← String.toList_eq_nil_iff, toList_snakeCase]
  exact ⟨fun h => by_contra fun hne => joinWords_ne_nil (areWords_lowerWords s) hne h, fun h => h ▸ rfl⟩

/-- The parts around a separator are written apart from each other. -/
theorem snakeCase_append_separator (a b : String) {c : Char} (hc : c.isAlphanum = false) :
    snakeCase (a ++ String.singleton c ++ b) =
      "_".intercalate ([snakeCase a, snakeCase b].filter (· ≠ "")) := by
  have hwords := lowerWords_append_separator a b hc
  by_cases ha : snakeCase a = ""
  · rw [snakeCase_eq_empty_iff.mp ha, List.nil_append, ← snakeCase_eq_iff] at hwords
    rw [hwords]
    by_cases hb : snakeCase b = "" <;> simp [ha, hb]
  · by_cases hb : snakeCase b = ""
    · rw [snakeCase_eq_empty_iff.mp hb, List.append_nil, ← snakeCase_eq_iff] at hwords
      rw [hwords]
      simp [ha, hb]
    · have hjoin := joinWords_append (mt snakeCase_eq_empty_iff.mpr ha) (mt snakeCase_eq_empty_iff.mpr hb)
      rw [← hwords, ← toList_snakeCase, ← toList_snakeCase, ← toList_snakeCase] at hjoin
      rw [← String.toList_inj, hjoin]
      simp [ha, hb]

/-- An accent separates words as a hyphen does. -/
theorem snakeCase_append_separator_accent :
    'é'.isAlphanum = false ∧
      snakeCase ("userID" ++ String.singleton 'é' ++ "HTTPServer2") = "user_id_http_server2" :=
  ⟨rfl, (snakeCase_append_separator "userID" "HTTPServer2" rfl).trans (by decide +kernel)⟩

/-! ## Texts in snake case -/

/-- Small letters and digits, at least one. -/
def isSmallWord (w : List Char) : Bool := !w.isEmpty && w.all isLowerOrDigit

/-- Whether a text is empty or small words with an underscore between any two. -/
def isSnakeCase (s : String) : Bool := s.isEmpty || (s.toList.splitOn '_').all isSmallWord

/-- A text without its underscores. -/
def withoutUnderscores (s : String) : List Char := s.toList.filter (· != '_')

/-- The letters and digits of a text, in small letters. -/
def lettersAndDigits (s : String) : List Char := (s.toList.filter Char.isAlphanum).map Char.toLower

section

variable {w : List Char} {ws : List (List Char)}

theorem isSmallWord_iff : isSmallWord w = true ↔ w ≠ [] ∧ ∀ c ∈ w, isLowerOrDigit c = true := by
  simp [isSmallWord]

theorem areWords_of_isSmallWord (h : ∀ w ∈ ws, isSmallWord w = true) : AreWords ws := by
  intro w hw
  obtain ⟨hne, hall⟩ := isSmallWord_iff.mp (h w hw)
  exact ⟨hne, fun c hc => isAlphanum_of_isLowerOrDigit (hall c hc)⟩

theorem isSnakeCase_iff {s : String} :
    isSnakeCase s = true ↔ ∃ ws, (∀ w ∈ ws, isSmallWord w = true) ∧ s.toList = joinWords ws := by
  rw [isSnakeCase, Bool.or_eq_true_iff, String.isEmpty_iff, List.all_eq_true]
  constructor
  · rintro (rfl | h)
    · exact ⟨[], List.forall_mem_nil _, rfl⟩
    · exact ⟨s.toList.splitOn '_', h, (List.intercalate_splitOn '_').symm⟩
  · rintro ⟨ws, hws, hjoin⟩
    by_cases hne : ws = []
    · rw [hne] at hjoin
      exact .inl (String.toList_eq_nil_iff.mp hjoin)
    · have hsplit : s.toList.splitOn '_' = ws := by
        rw [hjoin]
        refine List.splitOn_intercalate '_' (fun w hw hmem => ?_) hne
        exact Bool.false_ne_true ((areWords_of_isSmallWord hws w hw).2 '_' hmem)
      exact .inr (hsplit ▸ hws)

/-- Small words are read as they are. -/
theorem words_joinWords (h : ∀ w ∈ ws, isSmallWord w = true) : words (joinWords ws) = ws := by
  induction ws with
  | nil => rfl
  | cons w ws ih =>
    obtain ⟨hw, hws⟩ := List.forall_mem_cons.mp h
    have hword : words w = [w] := by
      obtain ⟨hne, hall⟩ := isSmallWord_iff.mp hw
      have hfirst : FirstWord w [] := .small hne ⟨hall, rfl⟩
      simpa using hfirst.words_append
    by_cases hrest : ws = []
    · rw [hrest, joinWords, List.intercalate_singleton, hword]
    · rw [joinWords_cons hrest, words_append_separator _ _ rfl, hword, ih hws, List.singleton_append]

theorem isSmallWord_of_mem_lowerWords {s : String} (h : w ∈ lowerWords s) : isSmallWord w = true := by
  have hword := areWords_lowerWords s w h
  refine isSmallWord_iff.mpr ⟨hword.1, fun c hc => ?_⟩
  obtain ⟨v, -, rfl⟩ := List.mem_map.mp h
  obtain ⟨x, -, rfl⟩ := List.mem_map.mp hc
  have halnum := hword.2 _ hc
  cases hupper : x.isUpper with
  | true => exact isLowerOrDigit_of_isLower (isLower_toLower hupper)
  | false =>
    rw [toLower_of_not_isUpper hupper] at halnum ⊢
    exact Bool.or_eq_true_iff.mpr (isLower_or_isDigit halnum hupper)

theorem isSnakeCase_snakeCase (s : String) : isSnakeCase (snakeCase s) = true :=
  isSnakeCase_iff.mpr ⟨lowerWords s, fun _ => isSmallWord_of_mem_lowerWords, toList_snakeCase s⟩

theorem snakeCase_of_isSnakeCase {s : String} (h : isSnakeCase s = true) : snakeCase s = s := by
  obtain ⟨ws, hws, hjoin⟩ := isSnakeCase_iff.mp h
  have hlower : ∀ w ∈ ws, w.map Char.toLower = w := by
    intro w hw
    refine (List.map_congr_left fun c hc => ?_).trans (List.map_id w)
    have hc := (isSmallWord_iff.mp (hws w hw)).2 c hc
    exact toLower_of_not_isUpper (isUpper_eq_false_of_isLowerOrDigit hc)
  have hwords : lowerWords s = ws := by
    rw [lowerWords, hjoin, words_joinWords hws]
    exact (List.map_congr_left hlower).trans (List.map_id ws)
  rw [← String.toList_inj, toList_snakeCase, hwords, hjoin]

theorem filter_ne_underscore (h : ∀ c ∈ w, c.isAlphanum = true) : w.filter (· != '_') = w := by
  refine List.filter_eq_self.mpr fun c hc => bne_iff_ne.mpr ?_
  rintro rfl
  exact Bool.false_ne_true (h '_' hc)

theorem filter_joinWords (h : AreWords ws) : (joinWords ws).filter (· != '_') = ws.flatten := by
  induction ws with
  | nil => rfl
  | cons w ws ih =>
    obtain ⟨hw, hws⟩ := List.forall_mem_cons.mp h
    have hfilter := filter_ne_underscore hw.2
    by_cases hrest : ws = []
    · rw [hrest, joinWords, List.intercalate_singleton, hfilter, List.flatten_singleton]
    · rw [joinWords_cons hrest, List.filter_append, hfilter, List.flatten_cons, ← ih hws]
      rfl

end

/-- Snake case gives small words with underscores between them, loses no letter or digit, and changes no
text that has this form already. -/
theorem snakeCase_normalises (s : String) :
    isSnakeCase (snakeCase s) = true ∧ withoutUnderscores (snakeCase s) = lettersAndDigits s ∧
      (snakeCase s = s ↔ isSnakeCase s = true) ∧ snakeCase (snakeCase s) = snakeCase s := by
  refine ⟨isSnakeCase_snakeCase s, ?_, ?_, snakeCase_of_isSnakeCase (isSnakeCase_snakeCase s)⟩
  · rw [withoutUnderscores, toList_snakeCase, filter_joinWords (areWords_lowerWords s),
      flatten_lowerWords, lettersAndDigits]
  · exact ⟨fun h => h ▸ isSnakeCase_snakeCase s, snakeCase_of_isSnakeCase⟩

end SchemaModels.Text
