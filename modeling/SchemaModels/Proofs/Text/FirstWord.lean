import SchemaModels.Proofs.SnakeCase

/-! # The first word of a text

A text that starts with a letter or digit is a word and a rest. What the word is depends on its own
spelling and on at most two characters of the rest: `FirstWord` has one rule for each way a word can end.
Every such text has a first word (`exists_firstWord`), and the scan finds it (`FirstWord.words_append`).
So a fact about the words of all texts is proved along the scan (`scan_induction`): for the empty text, past
a separator, and past a first word. -/

namespace SchemaModels.Text

/-! ## Classes of characters -/

section

variable {c : Char}

theorem isUpper_iff : c.isUpper = true ↔ 65 ≤ c.toNat ∧ c.toNat ≤ 90 := decide_eq_true_iff

theorem isLower_iff : c.isLower = true ↔ 97 ≤ c.toNat ∧ c.toNat ≤ 122 :=
  Bool.and_eq_true_iff.trans (and_congr decide_eq_true_iff decide_eq_true_iff)

theorem isDigit_iff : c.isDigit = true ↔ 48 ≤ c.toNat ∧ c.toNat ≤ 57 :=
  Bool.and_eq_true_iff.trans (and_congr decide_eq_true_iff decide_eq_true_iff)

theorem isUpper_eq_false_of_isLowerOrDigit (h : isLowerOrDigit c = true) : c.isUpper = false := by
  rw [isLowerOrDigit, Bool.or_eq_true_iff, isLower_iff, isDigit_iff] at h
  rw [← Bool.not_eq_true, isUpper_iff]
  omega

theorem isUpperOrDigit_eq_false_of_isLower (h : c.isLower = true) : isUpperOrDigit c = false := by
  rw [isLower_iff] at h
  rw [← Bool.not_eq_true, isUpperOrDigit, Bool.or_eq_true_iff, isUpper_iff, isDigit_iff]
  omega

theorem isLower_eq_false_of_isDigit (h : c.isDigit = true) : c.isLower = false := by
  rw [isDigit_iff] at h
  rw [← Bool.not_eq_true, isLower_iff]
  omega

theorem isUpperOrDigit_of_isUpper (h : c.isUpper = true) : isUpperOrDigit c = true :=
  Bool.or_eq_true_iff.mpr (.inl h)

theorem isUpperOrDigit_of_isDigit (h : c.isDigit = true) : isUpperOrDigit c = true :=
  Bool.or_eq_true_iff.mpr (.inr h)

theorem isLowerOrDigit_of_isDigit (h : c.isDigit = true) : isLowerOrDigit c = true :=
  Bool.or_eq_true_iff.mpr (.inr h)

theorem isLowerOrDigit_of_isLower (h : c.isLower = true) : isLowerOrDigit c = true :=
  Bool.or_eq_true_iff.mpr (.inl h)

theorem isUpper_eq_false_of_isDigit (h : c.isDigit = true) : c.isUpper = false :=
  isUpper_eq_false_of_isLowerOrDigit (isLowerOrDigit_of_isDigit h)

theorem isUpper_eq_false_of_isLower (h : c.isLower = true) : c.isUpper = false :=
  isUpper_eq_false_of_isLowerOrDigit (isLowerOrDigit_of_isLower h)

/-- A letter or digit that is no capital is a small letter or a digit. -/
theorem isLower_or_isDigit (h : c.isAlphanum = true) (hupper : c.isUpper = false) :
    c.isLower = true ∨ c.isDigit = true := by
  rwa [isAlphanum_eq, hupper, Bool.false_or, Bool.or_eq_true_iff] at h

end

/-! ## Runs -/

/-- `w` is the longest run of the class at the start of the text `w ++ r`. -/
structure Run (p : Char → Bool) (w r : List Char) : Prop where
  all : ∀ c ∈ w, p c = true
  stop : startsWith p r = false

section

variable {p q : Char → Bool} {c : Char} {w r cs : List Char}

/-- A class with no more characters starts no more texts. -/
theorem startsWith_eq_false_of_imp (hpq : ∀ c, p c = true → q c = true)
    (h : startsWith q r = false) : startsWith p r = false := by
  cases r with
  | nil => rfl
  | cons c r => exact Bool.eq_false_iff.mpr fun hc => Bool.eq_false_iff.mp h (hpq c hc)

theorem startsWith_append_of_ne_nil (hne : w ≠ []) (hw : ∀ c ∈ w, p c = true) :
    startsWith p (w ++ r) = true := by
  obtain ⟨c, w, rfl⟩ := List.exists_cons_of_ne_nil hne
  exact hw c List.mem_cons_self

theorem startsWith_isUpper_of_small (hne : w ≠ []) (hw : ∀ c ∈ w, isLowerOrDigit c = true) :
    startsWith Char.isUpper (w ++ r) = false := by
  obtain ⟨c, w, rfl⟩ := List.exists_cons_of_ne_nil hne
  exact isUpper_eq_false_of_isLowerOrDigit (hw c List.mem_cons_self)

/-- What follows a text counts only if the text is empty. -/
theorem startsWith_append_cons (hc : p c = false) (h : startsWith p r = false) :
    startsWith p (r ++ c :: cs) = false := by
  cases r with
  | nil => exact hc
  | cons x r => exact h

theorem Run.runLength_append (h : Run p w r) : runLength p (w ++ r) = w.length := by
  have hrest : r.takeWhile p = [] := by
    cases r with
    | nil => rfl
    | cons c r => exact List.takeWhile_cons_of_neg (Bool.eq_false_iff.mp h.stop)
  rw [runLength, List.takeWhile_append_of_pos h.all, hrest, List.append_nil]

theorem Run.append_cons (h : Run p w r) (hc : p c = false) : Run p w (r ++ c :: cs) :=
  ⟨h.all, startsWith_append_cons hc h.stop⟩

theorem exists_run (p : Char → Bool) (cs : List Char) : ∃ w r, cs = w ++ r ∧ Run p w r := by
  induction cs with
  | nil => exact ⟨[], [], rfl, List.forall_mem_nil _, rfl⟩
  | cons c cs ih =>
    cases hc : p c with
    | true =>
      obtain ⟨w, r, rfl, hall, hstop⟩ := ih
      exact ⟨c :: w, r, rfl, List.forall_mem_cons.mpr ⟨hc, hall⟩, hstop⟩
    | false => exact ⟨[], c :: cs, rfl, List.forall_mem_nil _, hc⟩

/-- The longest run is not empty where the text starts with the class. -/
theorem exists_run_ne_nil (hc : startsWith p cs = true) :
    ∃ w r, cs = w ++ r ∧ w ≠ [] ∧ Run p w r := by
  obtain ⟨w, r, rfl, hrun⟩ := exists_run p cs
  refine ⟨w, r, rfl, ?_, hrun⟩
  rintro rfl
  exact Bool.eq_false_iff.mp hrun.stop hc

end

/-- The length of a first word, by the capitals that start the text. -/
theorem wordLength_append_of_run {w r : List Char} (h : Run Char.isUpper w r) :
    wordLength (w ++ r) =
      if w.length = 0 then runLength isLowerOrDigit (w ++ r)
      else if 2 ≤ w.length && startsWith Char.isLower r then w.length - 1
      else if w.length = 1 && startsWith isLowerOrDigit r then 1 + runLength isLowerOrDigit r
      else runLength isUpperOrDigit (w ++ r) := by
  unfold wordLength
  dsimp only
  rw [h.runLength_append, List.drop_left]

/-! ## First words -/

/-- The text `w ++ r` starts with the word `w`. -/
inductive FirstWord : (w r : List Char) → Prop
  /-- All small letters and digits that there are. -/
  | small {w r : List Char} (hne : w ≠ []) (hrun : Run isLowerOrDigit w r) : FirstWord w r
  /-- A capital and all small letters and digits after it. -/
  | capitalised {c : Char} {w r : List Char} (hc : c.isUpper = true) (hne : w ≠ [])
      (hrun : Run isLowerOrDigit w r) : FirstWord (c :: w) r
  /-- Capitals up to a capitalised word. -/
  | acronym {w : List Char} {x y : Char} {r : List Char} (hne : w ≠ [])
      (hw : ∀ c ∈ w, c.isUpper = true) (hx : x.isUpper = true) (hy : y.isLower = true) :
      FirstWord w (x :: y :: r)
  /-- Capitals up to a separator or the end. -/
  | capitals {w r : List Char} (hne : w ≠ []) (hw : ∀ c ∈ w, c.isUpper = true)
      (hr : startsWith Char.isAlphanum r = false) : FirstWord w r
  /-- Two or more capitals, a digit, and all capitals and digits after it. -/
  | mixed {w : List Char} {d : Char} {v r : List Char} (htwo : 2 ≤ w.length)
      (hw : ∀ c ∈ w, c.isUpper = true) (hd : d.isDigit = true) (hrun : Run isUpperOrDigit v r) :
      FirstWord (w ++ d :: v) r

namespace FirstWord

variable {w r : List Char}

theorem ne_nil (h : FirstWord w r) : w ≠ [] := by
  cases h with
  | small hne | acronym hne | capitals hne => exact hne
  | capitalised => exact List.cons_ne_nil _ _
  | mixed => exact List.append_ne_nil_of_right_ne_nil _ (List.cons_ne_nil _ _)

/-- What follows a separator has no say in the first word. -/
theorem append_separator (h : FirstWord w r) {c : Char} (hc : c.isAlphanum = false)
    (cs : List Char) : FirstWord w (r ++ c :: cs) := by
  have hlower : isLowerOrDigit c = false :=
    Bool.eq_false_iff.mpr fun h => Bool.eq_false_iff.mp hc (isAlphanum_of_isLowerOrDigit h)
  have hupper : isUpperOrDigit c = false :=
    Bool.eq_false_iff.mpr fun h => Bool.eq_false_iff.mp hc (isAlphanum_of_isUpperOrDigit h)
  cases h with
  | small hne hrun => exact .small hne (hrun.append_cons hlower)
  | capitalised hx hne hrun => exact .capitalised hx hne (hrun.append_cons hlower)
  | acronym hne hw hx hy => exact .acronym hne hw hx hy
  | capitals hne hw hr => exact .capitals hne hw (startsWith_append_cons hc hr)
  | mixed htwo hw hd hrun => exact .mixed htwo hw hd (hrun.append_cons hupper)

/-- The scan takes the first word. -/
theorem wordLength_append (h : FirstWord w r) : wordLength (w ++ r) = w.length := by
  cases h with
  | small hne hrun =>
    have hcapitals : Run Char.isUpper [] (w ++ r) :=
      ⟨List.forall_mem_nil _, startsWith_isUpper_of_small hne hrun.all⟩
    exact (wordLength_append_of_run hcapitals).trans hrun.runLength_append
  | @capitalised c w r hc hne hrun =>
    have hnext : startsWith isLowerOrDigit (w ++ r) = true := startsWith_append_of_ne_nil hne hrun.all
    have hcapitals : Run Char.isUpper [c] (w ++ r) :=
      ⟨List.forall_mem_singleton.mpr hc, startsWith_isUpper_of_small hne hrun.all⟩
    refine (wordLength_append_of_run hcapitals).trans ?_
    simp [hnext, hrun.runLength_append, Nat.add_comm]
  | @acronym w x y r hne hw hx hy =>
    have hcapitals : Run Char.isUpper (w ++ [x]) (y :: r) :=
      ⟨List.forall_mem_append.mpr ⟨hw, List.forall_mem_singleton.mpr hx⟩,
        isUpper_eq_false_of_isLower hy⟩
    have hpos : 0 < w.length := List.length_pos_iff.mpr hne
    rw [List.append_cons, wordLength_append_of_run hcapitals]
    simp [startsWith, hy, Nat.succ_le_iff, hpos]
  | capitals hne hw hr =>
    have hnone : ∀ p, (∀ c, p c = true → c.isAlphanum = true) → startsWith p r = false :=
      fun p hp => startsWith_eq_false_of_imp hp hr
    have hlowerOrDigit := hnone isLowerOrDigit fun _ => isAlphanum_of_isLowerOrDigit
    have hlower : startsWith Char.isLower r = false :=
      startsWith_eq_false_of_imp (fun _ => isLowerOrDigit_of_isLower) hlowerOrDigit
    have hrun : Run isUpperOrDigit w r :=
      ⟨fun c hc => isUpperOrDigit_of_isUpper (hw c hc), hnone _ fun _ => isAlphanum_of_isUpperOrDigit⟩
    rw [wordLength_append_of_run ⟨hw, hnone _ fun _ => isAlphanum_of_isUpper⟩]
    simp [hlower, hlowerOrDigit, hrun.runLength_append, hne]
  | @mixed w d v r htwo hw hd hrun =>
    have hall : ∀ c ∈ w ++ d :: v, isUpperOrDigit c = true := by
      refine List.forall_mem_append.mpr ⟨fun c hc => isUpperOrDigit_of_isUpper (hw c hc), ?_⟩
      exact List.forall_mem_cons.mpr ⟨isUpperOrDigit_of_isDigit hd, hrun.all⟩
    have hcapitals : Run Char.isUpper w (d :: v ++ r) := ⟨hw, isUpper_eq_false_of_isDigit hd⟩
    have hlength := Run.runLength_append ⟨hall, hrun.stop⟩
    rw [List.append_assoc] at hlength ⊢
    have hmany : w.length ≠ 0 ∧ w.length ≠ 1 := by omega
    rw [wordLength_append_of_run hcapitals, hlength]
    simp [startsWith, isLower_eq_false_of_isDigit hd, hmany]

theorem words_append (h : FirstWord w r) : words (w ++ r) = w :: words r := by
  have hlength := h.wordLength_append
  obtain ⟨c, w, rfl⟩ := List.exists_cons_of_ne_nil h.ne_nil
  rw [List.cons_append] at hlength ⊢
  rw [words_cons_of_succ hlength, List.take_left, List.drop_left]

theorem isAlphanum (h : FirstWord w r) {c : Char} (hc : c ∈ w) : c.isAlphanum = true :=
  isAlphanum_of_mem_words (h.words_append ▸ List.mem_cons_self) hc

/-- After its first character a word has no capitals, or else it has no small letters. -/
theorem isLowerOrDigit_or_isUpperOrDigit (h : FirstWord w r) :
    (∀ c ∈ w.tail, isLowerOrDigit c = true) ∨ ∀ c ∈ w, isUpperOrDigit c = true := by
  cases h with
  | small _ hrun => exact .inl fun c hc => hrun.all c (List.mem_of_mem_tail hc)
  | capitalised _ _ hrun => exact .inl hrun.all
  | acronym _ hw | capitals _ hw => exact .inr fun c hc => isUpperOrDigit_of_isUpper (hw c hc)
  | mixed _ hw hd hrun =>
    refine .inr (List.forall_mem_append.mpr ⟨fun c hc => isUpperOrDigit_of_isUpper (hw c hc), ?_⟩)
    exact List.forall_mem_cons.mpr ⟨isUpperOrDigit_of_isDigit hd, hrun.all⟩

end FirstWord

/-- Where small letters or digits follow capitals, the last capital goes with them, unless they start with
a digit and other capitals stand before. -/
theorem exists_firstWord_of_capital {v : List Char} {x y : Char} (hv : ∀ c ∈ v, c.isUpper = true)
    (hx : x.isUpper = true) (hy : y.isLower = true ∨ y.isDigit = true) (r : List Char) :
    ∃ w r', v ++ x :: y :: r = w ++ r' ∧ FirstWord w r' := by
  by_cases hnone : v = []
  · have hstart : startsWith isLowerOrDigit (y :: r) = true := Bool.or_eq_true_iff.mpr hy
    obtain ⟨u, r', hr, hne, hrun⟩ := exists_run_ne_nil hstart
    exact ⟨x :: u, r', by rw [hnone, hr]; rfl, .capitalised hx hne hrun⟩
  · rcases hy with hy | hy
    · exact ⟨v, x :: y :: r, rfl, .acronym hnone hv hx hy⟩
    · obtain ⟨u, r', rfl, hrun⟩ := exists_run isUpperOrDigit r
      have hall : ∀ c ∈ v ++ [x], c.isUpper = true :=
        List.forall_mem_append.mpr ⟨hv, List.forall_mem_singleton.mpr hx⟩
      have htwo : 2 ≤ (v ++ [x]).length := by
        rw [List.length_append, List.length_singleton]
        exact Nat.succ_le_succ (List.length_pos_iff.mpr hnone)
      exact ⟨(v ++ [x]) ++ y :: u, r', by simp, .mixed htwo hall hy hrun⟩

/-- Every text that starts with a letter or digit has a first word. -/
theorem exists_firstWord {cs : List Char} (h : startsWith Char.isAlphanum cs = true) :
    ∃ w r, cs = w ++ r ∧ FirstWord w r := by
  obtain ⟨w, r, rfl, hcapitals⟩ := exists_run Char.isUpper cs
  cases hnext : startsWith Char.isAlphanum r with
  | false =>
    refine ⟨w, r, rfl, .capitals ?_ hcapitals.all hnext⟩
    rintro rfl
    exact Bool.eq_false_iff.mp hnext h
  | true =>
    cases r with
    | nil => cases hnext
    | cons y r =>
      have hy := isLower_or_isDigit hnext hcapitals.stop
      obtain rfl | ⟨v, x, rfl⟩ := w.eq_nil_or_concat
      · have hstart : startsWith isLowerOrDigit (y :: r) = true := Bool.or_eq_true_iff.mpr hy
        obtain ⟨v, r', hr, hne, hrun⟩ := exists_run_ne_nil hstart
        exact ⟨v, r', hr, .small hne hrun⟩
      · rw [List.concat_eq_append] at hcapitals ⊢
        obtain ⟨hv, hx⟩ := List.forall_mem_append.mp hcapitals.all
        rw [List.append_assoc]
        exact exists_firstWord_of_capital hv (hx x List.mem_cons_self) hy r

theorem words_cons_of_separator {c : Char} (h : c.isAlphanum = false) (cs : List Char) :
    words (c :: cs) = words cs := by
  apply words_cons_of_zero
  cases hlength : wordLength (c :: cs) with
  | zero => rfl
  | succ n =>
    have hmem : c ∈ (c :: cs).take (wordLength (c :: cs)) := by
      rw [hlength]
      exact List.mem_cons_self
    exact absurd (isAlphanum_of_mem_take_wordLength hmem) (Bool.eq_false_iff.mp h)

/-- Induction along the scan. -/
@[elab_as_elim]
theorem scan_induction {P : List Char → Prop} (nil : P [])
    (separator : ∀ c cs, c.isAlphanum = false → P cs → P (c :: cs))
    (word : ∀ w r, FirstWord w r → P r → P (w ++ r)) (cs : List Char) : P cs := by
  induction hn : cs.length using Nat.strongRecOn generalizing cs with
  | _ n ih =>
    subst hn
    cases cs with
    | nil => exact nil
    | cons c cs =>
      cases hc : c.isAlphanum with
      | false => exact separator c cs hc (ih _ (Nat.lt_succ_self _) cs rfl)
      | true =>
        have hstart : startsWith Char.isAlphanum (c :: cs) = true := hc
        obtain ⟨w, r, hsplit, hword⟩ := exists_firstWord hstart
        rw [hsplit] at ih ⊢
        refine word w r hword (ih _ ?_ r rfl)
        rw [List.length_append]
        exact Nat.lt_add_of_pos_left (List.length_pos_iff.mpr hword.ne_nil)

end SchemaModels.Text
