import SchemaModels.Proofs.Text.WordBoundaries

/-! # Capitalised words

A capital belongs with the small letter after it. The words keep the two together (`places_words`), unless
a mixed run stands before them: two capitals, a digit, and only capitals and digits from there on. Such a
run is one word with the capital, and the small letter starts the next. -/

namespace SchemaModels.Text

/-! ## Mixed runs -/

/-- Two capitals, a digit, and then only capitals and digits. -/
def isMixedRun : List Char → Bool
  | x :: y :: d :: cs => x.isUpper && y.isUpper && d.isDigit && cs.all isUpperOrDigit
  | _ => false

/-- Whether a text ends in two capitals, a digit, and any capitals and digits. -/
def endsInMixedRun : List Char → Bool
  | [] => false
  | c :: cs => isMixedRun (c :: cs) || endsInMixedRun cs

section

variable {a cs : List Char}

theorem isMixedRun_iff :
    isMixedRun cs = true ↔ ∃ x y d v, cs = x :: y :: d :: v ∧ x.isUpper = true ∧ y.isUpper = true ∧
      d.isDigit = true ∧ ∀ c ∈ v, isUpperOrDigit c = true := by
  constructor
  · intro h
    match cs, h with
    | x :: y :: d :: v, h =>
      simp only [isMixedRun, Bool.and_eq_true, List.all_eq_true] at h
      exact ⟨x, y, d, v, rfl, h.1.1.1, h.1.1.2, h.1.2, h.2⟩
  · rintro ⟨x, y, d, v, rfl, hx, hy, hd, hv⟩
    simp only [isMixedRun, hx, hy, hd, Bool.true_and, List.all_eq_true]
    exact hv

/-- A mixed run has capitals and digits only. -/
theorem isUpperOrDigit_of_isMixedRun (h : isMixedRun cs = true) {c : Char} (hc : c ∈ cs) :
    isUpperOrDigit c = true := by
  obtain ⟨x, y, d, v, rfl, hx, hy, hd, hv⟩ := isMixedRun_iff.mp h
  simp only [List.mem_cons] at hc
  rcases hc with rfl | rfl | rfl | hc
  · exact isUpperOrDigit_of_isUpper hx
  · exact isUpperOrDigit_of_isUpper hy
  · exact isUpperOrDigit_of_isDigit hd
  · exact hv c hc

/-- A mixed run starts with a capital. -/
theorem isMixedRun_append_of_isLowerOrDigit {v : List Char} (hne : v ≠ [])
    (hv : ∀ c ∈ v, isLowerOrDigit c = true) (cs : List Char) : isMixedRun (v ++ cs) = false := by
  obtain ⟨c, v, rfl⟩ := List.exists_cons_of_ne_nil hne
  have hc := isUpper_eq_false_of_isLowerOrDigit (hv c List.mem_cons_self)
  refine Bool.eq_false_iff.mpr fun hrun => ?_
  obtain ⟨_, _, _, _, heq, hupper, -⟩ := isMixedRun_iff.mp hrun
  obtain rfl := (List.cons.inj heq).1
  exact Bool.eq_false_iff.mp hc hupper

/-- A mixed run has a digit. -/
theorem not_isMixedRun_of_isUpper (h : ∀ c ∈ cs, c.isUpper = true) : isMixedRun cs = false := by
  rw [← Bool.not_eq_true]
  intro hrun
  obtain ⟨x, y, d, v, rfl, -, -, hd, -⟩ := isMixedRun_iff.mp hrun
  exact Bool.eq_false_iff.mp (isUpper_eq_false_of_isDigit hd) (h d (by simp))

theorem endsInMixedRun_append (v : List Char) (h : endsInMixedRun cs = true) :
    endsInMixedRun (v ++ cs) = true := by
  induction v with
  | nil => exact h
  | cons c v ih => exact Bool.or_eq_true_iff.mpr (.inr ih)

theorem endsInMixedRun_of_capitals {w v : List Char} {d : Char} (htwo : 2 ≤ w.length)
    (hw : ∀ c ∈ w, c.isUpper = true) (hd : d.isDigit = true) (hv : ∀ c ∈ v, isUpperOrDigit c = true) :
    endsInMixedRun (w ++ d :: v) = true := by
  have hlast : (w.drop (w.length - 2)).length = 2 := by
    rw [List.length_drop]
    omega
  obtain ⟨x, y, hxy⟩ := List.length_eq_two.mp hlast
  have hmem : ∀ c ∈ [x, y], c.isUpper = true := fun c hc => hw c (List.mem_of_mem_drop (hxy ▸ hc))
  have hrun : isMixedRun (x :: y :: d :: v) = true :=
    isMixedRun_iff.mpr ⟨x, y, d, v, rfl, hmem x (by simp), hmem y (by simp), hd, hv⟩
  rw [← List.take_append_drop (w.length - 2) w, hxy, List.append_assoc]
  exact endsInMixedRun_append _ (Bool.or_eq_true_iff.mpr (.inl hrun))

/-- A text ends as its end does, if no mixed run starts before that. -/
theorem endsInMixedRun_append_eq {w : List Char}
    (h : ∀ v, v ≠ [] → v <:+ w → isMixedRun (v ++ cs) = false) :
    endsInMixedRun (w ++ cs) = endsInMixedRun cs := by
  induction w with
  | nil => rfl
  | cons c w ih =>
    rw [List.cons_append, endsInMixedRun, ih fun v hne hv => h v hne (List.suffix_cons_iff.mpr (.inr hv)),
      ← List.cons_append, h (c :: w) (List.cons_ne_nil _ _) List.suffix_rfl, Bool.false_or]

end

namespace FirstWord

variable {a b w r : List Char} {u l : Char}

/-- No mixed run starts in a word that ends before a capital. -/
theorem endsInMixedRun_append (h : FirstWord w (a ++ u :: b)) (hu : u.isUpper = true) :
    endsInMixedRun (w ++ a) = endsInMixedRun a := by
  -- what follows a run of capitals and digits is no part of a mixed run, and is not the capital
  have hstop : startsWith isUpperOrDigit (a ++ u :: b) = false →
      ∀ v, isMixedRun (v ++ a) = false := by
    intro hr v
    cases a with
    | nil => exact absurd (isUpperOrDigit_of_isUpper hu) (Bool.eq_false_iff.mp hr)
    | cons z a =>
      refine Bool.eq_false_iff.mpr fun hrun => Bool.eq_false_iff.mp hr ?_
      exact isUpperOrDigit_of_isMixedRun hrun (List.mem_append_right v List.mem_cons_self)
  apply endsInMixedRun_append_eq
  intro v hne hv
  generalize hr : a ++ u :: b = r at h hstop
  cases h with
  | small _ hrun =>
    exact isMixedRun_append_of_isLowerOrDigit hne (fun c hc => hrun.all c (hv.subset hc)) a
  | @capitalised x w r hx hw hrun =>
    rcases List.suffix_cons_iff.mp hv with rfl | hv
    · obtain ⟨y, w, rfl⟩ := List.exists_cons_of_ne_nil hw
      have hy := isUpper_eq_false_of_isLowerOrDigit (hrun.all y List.mem_cons_self)
      refine Bool.eq_false_iff.mpr fun hmixed => ?_
      obtain ⟨_, _, _, _, heq, -, hupper, -⟩ := isMixedRun_iff.mp hmixed
      obtain rfl := (List.cons.inj (List.cons.inj heq).2).1
      exact Bool.eq_false_iff.mp hy hupper
    · exact isMixedRun_append_of_isLowerOrDigit hne (fun c hc => hrun.all c (hv.subset hc)) a
  | @acronym w x y r hw hall hx hy =>
    match a, hr with
    | [], _ =>
      rw [List.append_nil]
      exact not_isMixedRun_of_isUpper fun c hc => hall c (hv.subset hc)
    | [_], hr =>
      cases hr
      exact absurd hu (Bool.eq_false_iff.mp (isUpper_eq_false_of_isLower hy))
    | _ :: _ :: a, hr =>
      cases hr
      refine Bool.eq_false_iff.mpr fun hmixed => ?_
      have hmem : y ∈ v ++ x :: y :: a := by simp
      exact Bool.eq_false_iff.mp (isUpperOrDigit_eq_false_of_isLower hy)
        (isUpperOrDigit_of_isMixedRun hmixed hmem)
  | capitals _ _ hr =>
    exact hstop (startsWith_eq_false_of_imp (fun _ => isAlphanum_of_isUpperOrDigit) hr) v
  | mixed _ _ _ hrun => exact hstop hrun.stop v

/-- The word that parts a capital from the small letter after it is a mixed run. -/
theorem endsInMixedRun_of_torn (h : FirstWord (a ++ [u]) (l :: b)) (hu : u.isUpper = true)
    (hl : l.isLower = true) : endsInMixedRun a = true := by
  generalize hw : a ++ [u] = w at h
  cases h with
  | small _ hrun | capitalised _ _ hrun =>
    exact absurd (isLowerOrDigit_of_isLower hl) (Bool.eq_false_iff.mp hrun.stop)
  | acronym _ _ hx _ => exact absurd hx (Bool.eq_false_iff.mp (isUpper_eq_false_of_isLower hl))
  | capitals _ _ hr =>
    exact absurd (isAlphanum_of_isLowerOrDigit (isLowerOrDigit_of_isLower hl)) (Bool.eq_false_iff.mp hr)
  | @mixed w d v r htwo hall hd hrun =>
    obtain rfl | ⟨v, x, rfl⟩ := v.eq_nil_or_concat
    · obtain ⟨-, heq⟩ := List.append_inj' hw rfl
      cases heq
      exact absurd hu (Bool.eq_false_iff.mp (isUpper_eq_false_of_isDigit hd))
    · rw [List.concat_eq_append, ← List.cons_append, ← List.append_assoc] at hw
      obtain ⟨rfl, -⟩ := List.append_inj' hw rfl
      refine endsInMixedRun_of_capitals htwo hall hd fun c hc => hrun.all c ?_
      rw [List.concat_eq_append]
      exact List.mem_append_left _ hc

/-- A capital and a small letter are in one word only at its start. -/
theorem eq_nil_of_kept (h : FirstWord (a ++ u :: l :: b) r) (hu : u.isUpper = true)
    (hl : l.isLower = true) : a = [] := by
  cases a with
  | nil => rfl
  | cons c a =>
    rcases h.isLowerOrDigit_or_isUpperOrDigit with hall | hall
    · have hlower := hall u (by simp)
      exact absurd hu (Bool.eq_false_iff.mp (isUpper_eq_false_of_isLowerOrDigit hlower))
    · have hupper := hall l (by simp)
      exact absurd hupper (Bool.eq_false_iff.mp (isUpperOrDigit_eq_false_of_isLower hl))

end FirstWord

theorem exists_words_cons {c : Char} (hc : c.isAlphanum = true) (cs : List Char) :
    ∃ v vs, words (c :: cs) = (c :: v) :: vs := by
  have hstart : startsWith Char.isAlphanum (c :: cs) = true := hc
  obtain ⟨w, r, hsplit, hword⟩ := exists_firstWord hstart
  obtain ⟨x, v, rfl⟩ := List.exists_cons_of_ne_nil hword.ne_nil
  obtain rfl := (List.cons.inj hsplit).1
  exact ⟨v, words r, by rw [hsplit, hword.words_append]⟩

/-- Where among the words a capital stands that follows the text `a`, with a small letter after it: at the
end of a word if the two are torn apart, else right before the small letter. -/
def Places (torn : Bool) (a : List Char) (u l : Char) (ws : List (List Char)) : Prop :=
  ∃ xs w v ys, xs.flatten ++ w = a.filter Char.isAlphanum ∧
    ws = xs ++ if torn then (w ++ [u]) :: (l :: v) :: ys else (w ++ u :: l :: v) :: ys

theorem Places.cons {torn : Bool} {a w : List Char} {u l : Char} {ws : List (List Char)}
    (hw : ∀ c ∈ w, c.isAlphanum = true) (h : Places torn a u l ws) :
    Places torn (w ++ a) u l (w :: ws) := by
  obtain ⟨xs, w', v, ys, hflat, rfl⟩ := h
  refine ⟨w :: xs, w', v, ys, ?_, rfl⟩
  rw [List.flatten_cons, List.append_assoc, hflat, List.filter_append, List.filter_eq_self.mpr hw]

/-- A capital and the small letter after it are in one word, unless a mixed run stands before them. -/
theorem places_words (a b : List Char) {u l : Char} (hu : u.isUpper = true) (hl : l.isLower = true) :
    Places (endsInMixedRun a) a u l (words (a ++ u :: l :: b)) := by
  generalize ht : a ++ u :: l :: b = t
  induction t using scan_induction generalizing a with
  | nil => exact absurd ht (List.append_ne_nil_of_right_ne_nil _ (List.cons_ne_nil _ _))
  | separator c cs hc ih =>
    cases a with
    | nil =>
      obtain rfl := (List.cons.inj ht).1
      exact absurd (isAlphanum_of_isUpper hu) (Bool.eq_false_iff.mp hc)
    | cons x a =>
      obtain ⟨rfl, hcs⟩ := List.cons.inj ht
      have hrun : isMixedRun (x :: a) = false := by
        refine Bool.eq_false_iff.mpr fun hrun => Bool.eq_false_iff.mp hc ?_
        exact isAlphanum_of_isUpperOrDigit (isUpperOrDigit_of_isMixedRun hrun List.mem_cons_self)
      rw [words_cons_of_separator hc, endsInMixedRun, hrun, Bool.false_or, Places,
        List.filter_cons_of_neg (Bool.eq_false_iff.mp hc)]
      exact ih a hcs
  | word w r hword ih =>
    have hbefore : ∀ a', a = w ++ a' → a' ++ u :: l :: b = r →
        Places (endsInMixedRun a) a u l (w :: words r) := by
      rintro a' rfl rfl
      rw [hword.endsInMixedRun_append hu]
      exact (ih a' rfl).cons fun c => hword.isAlphanum
    rw [hword.words_append]
    -- the first word ends before the capital, between the two letters, or after both
    rcases List.append_eq_append_iff.mp ht with ⟨k, hw, hr⟩ | ⟨a', ha, hr⟩
    · rcases k with - | ⟨x, - | ⟨y, k⟩⟩
      · rw [List.append_nil] at hw
        exact hbefore [] (hw ▸ (List.append_nil w).symm) hr
      · cases hr
        subst hw
        have hnext := isAlphanum_of_isLowerOrDigit (isLowerOrDigit_of_isLower hl)
        obtain ⟨v, vs, hwords⟩ := exists_words_cons hnext b
        rw [hword.endsInMixedRun_of_torn hu hl, hwords]
        refine ⟨[], a, v, vs, (List.filter_eq_self.mpr fun c hc => ?_).symm, rfl⟩
        exact hword.isAlphanum (List.mem_append_left _ hc)
      · cases hr
        subst hw
        obtain rfl := hword.eq_nil_of_kept hu hl
        exact ⟨[], [], k, words r, rfl, rfl⟩
    · exact hbefore a' ha hr.symm

/-! ## Capitalised words in snake case -/

/-- The text `out` has `z` right after what it has of the letters and digits of `a`. -/
def HasAfter (out a : String) (z : List Char) : Prop :=
  ∃ p q : String, out = p ++ String.ofList z ++ q ∧ withoutUnderscores p = lettersAndDigits a

/-- No letter stands between two places after the same letters. -/
theorem eq_of_cons_eq_append_cons {c : Char} {p k s t : List Char} (hc : c ≠ '_')
    (hfilter : (p ++ k).filter (· != '_') = p.filter (· != '_')) (h : c :: s = k ++ c :: t) : s = t := by
  cases k with
  | nil => exact (List.cons.inj h).2
  | cons x k =>
    obtain rfl := (List.cons.inj h).1
    have hkept : (c :: k).filter (· != '_') = c :: k.filter (· != '_') := by simp [hc]
    rw [List.filter_append, hkept, List.append_right_eq_self] at hfilter
    cases hfilter

theorem HasAfter.eq_of_cons {out a : String} {c x y : Char} {z z' : List Char} (hc : c ≠ '_')
    (h : HasAfter out a (c :: x :: z)) (h' : HasAfter out a (c :: y :: z')) : x = y := by
  obtain ⟨p, q, rfl, hp⟩ := h
  obtain ⟨p', q', hout, hp'⟩ := h'
  have hletters : p.toList.filter (· != '_') = p'.toList.filter (· != '_') := hp.trans hp'.symm
  have hlists := congrArg String.toList hout
  simp only [String.toList_append, String.toList_ofList, List.append_assoc, List.cons_append] at hlists
  -- one of the two starts is the other and more
  rcases List.append_eq_append_iff.mp hlists with ⟨k, hk, hrest⟩ | ⟨k, hk, hrest⟩
  · rw [hk] at hletters
    exact (List.cons.inj (eq_of_cons_eq_append_cons hc hletters.symm hrest)).1
  · rw [hk] at hletters
    exact (List.cons.inj (eq_of_cons_eq_append_cons hc hletters hrest)).1.symm

theorem filter_flatMap_append_underscore {ws : List (List Char)}
    (h : ∀ w ∈ ws, ∀ c ∈ w, c.isAlphanum = true) :
    (ws.flatMap (· ++ ['_'])).filter (· != '_') = ws.flatten := by
  induction ws with
  | nil => rfl
  | cons w ws ih =>
    obtain ⟨hw, hws⟩ := List.forall_mem_cons.mp h
    have hend : ['_'].filter (· != '_') = [] := rfl
    rw [List.flatMap_cons, List.filter_append, List.filter_append, filter_ne_underscore hw, ih hws,
      hend, List.append_nil, List.flatten_cons]

theorem joinWords_append_cons (xs : List (List Char)) (y : List Char) (ys : List (List Char)) :
    joinWords (xs ++ y :: ys) = xs.flatMap (· ++ ['_']) ++ (y ++ ys.flatMap ('_' :: ·)) := by
  induction xs with
  | nil => exact joinWords_cons_eq y ys
  | cons x xs ih =>
    have hne : xs ++ y :: ys ≠ [] := List.append_ne_nil_of_right_ne_nil _ (List.cons_ne_nil _ _)
    rw [List.cons_append, joinWords_cons hne, ih, List.flatMap_cons, List.append_assoc,
      List.append_assoc, List.singleton_append]

/-- Snake case has the end of a word, and the words that follow, right after what stands before. -/
theorem hasAfter_of_words {a t : String} {xs ys : List (List Char)} {w z z' : List Char}
    (hflat : xs.flatten ++ w = a.toList.filter Char.isAlphanum)
    (hwords : words t.toList = xs ++ (w ++ z) :: ys)
    (hz : z' <+: z.map Char.toLower ++ (ys.map (List.map Char.toLower)).flatMap ('_' :: ·)) :
    HasAfter (snakeCase t) a z' := by
  obtain ⟨rest, hrest⟩ := hz
  have hletters : ∀ c ∈ xs.flatten ++ w, c.isAlphanum = true := by
    rw [hflat]
    exact fun c hc => (List.mem_filter.mp hc).2
  obtain ⟨hxs, hw⟩ := List.forall_mem_append.mp hletters
  refine ⟨String.ofList ((xs.map (List.map Char.toLower)).flatMap (· ++ ['_']) ++ w.map Char.toLower),
    String.ofList rest, ?_, ?_⟩
  · rw [← String.toList_inj, toList_snakeCase, lowerWords, hwords, List.map_append, List.map_cons,
      List.map_append, joinWords_append_cons]
    simp [← hrest]
  · rw [withoutUnderscores, String.toList_ofList, List.filter_append, filter_flatMap_append_underscore,
      filter_ne_underscore, lettersAndDigits, ← hflat, List.map_append, List.map_flatten]
    · intro c hc
      obtain ⟨x, hx, rfl⟩ := List.mem_map.mp hc
      exact (isAlphanum_toLower x).trans (hw x hx)
    · intro v hv c hc
      obtain ⟨x, hx, rfl⟩ := List.mem_map.mp hv
      obtain ⟨y, hy, rfl⟩ := List.mem_map.mp hc
      exact (isAlphanum_toLower y).trans (hxs y (List.mem_flatten.mpr ⟨x, hx, hy⟩))

theorem hasAfter_snakeCase {torn : Bool} {a t : String} {u l : Char}
    (hl : l.isLower = true) (h : Places torn a.toList u l (words t.toList)) :
    HasAfter (snakeCase t) a (if torn then [u.toLower, '_', l] else [u.toLower, l]) := by
  have hlower : l.toLower = l := toLower_of_not_isUpper (isUpper_eq_false_of_isLower hl)
  obtain ⟨xs, w, v, ys, hflat, hwords⟩ := h
  cases torn
  all_goals
    refine hasAfter_of_words hflat hwords ?_
    simp [hlower]

/-- Snake case puts an underscore between a capital and the small letter after it exactly if a mixed run
stands before them. Else it has the two side by side. -/
theorem underscore_in_capitalised_iff (a b : String) {u l : Char} (hu : u.isUpper = true)
    (hl : l.isLower = true) :
    (HasAfter (snakeCase (a ++ String.ofList [u, l] ++ b)) a [u.toLower, '_', l] ↔
        endsInMixedRun a.toList = true) ∧
      (HasAfter (snakeCase (a ++ String.ofList [u, l] ++ b)) a [u.toLower, l] ↔
        endsInMixedRun a.toList = false) := by
  have hplaces := places_words a.toList b.toList hu hl
  have hout : HasAfter (snakeCase (a ++ String.ofList [u, l] ++ b)) a
      (if endsInMixedRun a.toList then [u.toLower, '_', l] else [u.toLower, l]) := by
    refine hasAfter_snakeCase hl ?_
    rwa [String.toList_append, String.toList_append, String.toList_ofList, List.append_assoc]
  have hne : ∀ c : Char, c.isLower = true → c ≠ '_' := by
    rintro c hc rfl
    cases hc
  have hcapital := hne u.toLower (isLower_toLower hu)
  cases hmixed : endsInMixedRun a.toList with
  | true =>
    rw [hmixed, if_pos rfl] at hout
    refine ⟨iff_of_true hout rfl, iff_of_false (fun h => ?_) Bool.false_ne_true.symm⟩
    exact hne l hl (h.eq_of_cons hcapital hout)
  | false =>
    rw [hmixed, if_neg Bool.false_ne_true] at hout
    refine ⟨iff_of_false (fun h => ?_) Bool.false_ne_true, iff_of_true hout rfl⟩
    exact hne l hl (hout.eq_of_cons hcapital h)

/-- Two capitals and a digit tear the next word, one capital and a digit do not. -/
theorem underscore_in_capitalised_iff_digits :
    ('C'.isUpper = true ∧ 'd'.isLower = true) ∧
      HasAfter (snakeCase ("AB1" ++ String.ofList ['C', 'd'] ++ "")) "AB1" ['c', '_', 'd'] ∧
      HasAfter (snakeCase ("B1" ++ String.ofList ['C', 'd'] ++ "")) "B1" ['c', 'd'] :=
  ⟨⟨rfl, rfl⟩, (underscore_in_capitalised_iff "AB1" "" rfl rfl).1.mpr rfl,
    (underscore_in_capitalised_iff "B1" "" rfl rfl).2.mpr rfl⟩

/-- A capitalised word that snake case tears apart. -/
theorem snakeCase_tears_capitalised : snakeCase "AB1Cd" = "ab1c_d" := by
  decide +kernel

end SchemaModels.Text
