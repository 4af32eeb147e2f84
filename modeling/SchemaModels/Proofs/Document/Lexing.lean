import SchemaModels.Document.Printer
import SchemaModels.Proofs.Document.Names

/-! # Reading tokens back from a text

Between its tokens a text may have blanks and comments (`isIgnored`). However names and punctuators are
laid out with such text around them, the lexer finds them again (`Lexer.scan_weave`). Two tokens need
nothing between them, unless both are names. -/

namespace SchemaModels.Document

open Text

/-- Whether a text consists of blanks and of comments, each with the end of its line. The flag says
whether it starts inside of a comment. -/
def ignoredFrom : (comment : Bool) → List Char → Bool
  | comment, [] => !comment
  | true, c :: cs => ignoredFrom (!Lexer.isLineEnd c) cs
  | false, c :: cs =>
    if c == '#' then ignoredFrom true cs else Lexer.isBlank c && ignoredFrom false cs

/-- Whether a text can stand between tokens. -/
def isIgnored (s : String) : Bool := ignoredFrom false s.toList

/-- Gaps that keep words apart: they are ignored, and between two names there is one. -/
structure Layout (gap : Nat → String) (words : List String) : Prop where
  ignored : ∀ i, isIgnored (gap i) = true
  apart : ∀ i v w, words[i]? = some v → words[i + 1]? = some w → isName v = true → isName w = true →
    gap (i + 1) ≠ ""

theorem Layout.tail {gap : Nat → String} {word : String} {words : List String}
    (h : Layout gap (word :: words)) : Layout (fun i => gap (i + 1)) words where
  ignored i := h.ignored (i + 1)
  apart i v w hv hw := h.apart (i + 1) v w hv hw

/-- The stream of some tokens, up to the end of the text. -/
def TokenStream.ofTokens : List Token → TokenStream
  | [] => done
  | t :: ts => cons t (ofTokens ts)

theorem TokenStream.length_ofTokens (ts : List Token) : (ofTokens ts).length = ts.length := by
  induction ts with
  | nil => rfl
  | cons t ts ih => exact congrArg (· + 1) ih

/-- A token that has a spelling: a punctuator or a proper name. -/
def Token.Spelled (t : Token) : Prop := t.WellNamed ∧ t.spelling?.isSome = true

namespace Lexer

variable {c : Char} {cs rest : List Char} {t : Token} {w : String}

/-! ## Ignored text -/

theorem scan_of_isBlank (h : isBlank c = true) : scan 0 (c :: cs) = scan 0 cs := by
  rw [scan, lexeme, if_pos h]

theorem isBlank_of_isLineEnd (h : isLineEnd c = true) : isBlank c = true := by
  rcases Bool.or_eq_true_iff.mp h with h | h
  · obtain rfl := beq_iff_eq.mp h
    rfl
  · obtain rfl := beq_iff_eq.mp h
    rfl

theorem isNameChar_of_isNameStart (h : isNameStart c = true) : isNameChar c = true := by
  rcases Bool.or_eq_true_iff.mp h with halpha | hunder
  · simp [isNameChar, Char.isAlphanum, halpha]
  · simp [isNameChar, hunder]

theorem isNameChar_eq_false_of_isBlank (h : isBlank c = true) : isNameChar c = false := by
  simp only [isBlank, Bool.or_eq_true, beq_iff_eq] at h
  rcases h with ((((rfl | rfl) | rfl) | rfl) | rfl) | rfl <;> rfl

/-- The lexer passes over ignored text, also from inside of a comment. -/
theorem scan_ignoredFrom {comment : Bool} (h : ignoredFrom comment cs = true) (rest : List Char) :
    scan (if comment then runLength (fun c => !isLineEnd c) (cs ++ rest) else 0) (cs ++ rest) =
      scan 0 rest := by
  fun_induction ignoredFrom comment cs with
  | case1 comment =>
    obtain rfl : comment = false := by simpa using h
    rfl
  | case2 c cs ih =>
    specialize ih h
    cases hc : isLineEnd c with
    | true =>
      rw [hc] at ih
      have hrun : runLength (fun c => !isLineEnd c) (c :: cs ++ rest) = 0 := by
        simp [runLength, hc]
      rw [if_pos rfl, hrun, List.cons_append, scan_of_isBlank (isBlank_of_isLineEnd hc)]
      exact ih
    | false =>
      rw [hc] at ih
      have hrun : runLength (fun c => !isLineEnd c) (c :: cs ++ rest) =
          runLength (fun c => !isLineEnd c) (cs ++ rest) + 1 := by
        simp [runLength, hc]
      rw [if_pos rfl, hrun]
      exact ih
  | case3 c cs hc ih =>
    obtain rfl := beq_iff_eq.mp hc
    exact ih h
  | case4 c cs hc ih =>
    obtain ⟨hblank, hcs⟩ := Bool.and_eq_true_iff.mp h
    rw [if_neg Bool.false_ne_true, List.cons_append, scan_of_isBlank hblank]
    exact ih hcs

/-! ## Tokens -/

theorem isDigit_eq_false_of_isNameStart (h : isNameStart c = true) : c.isDigit = false := by
  rcases Bool.or_eq_true_iff.mp h with halpha | hunder
  · have hrange : (c.val ≥ 'A'.val ∧ c.val ≤ 'Z'.val) ∨ (c.val ≥ 'a'.val ∧ c.val ≤ 'z'.val) := by
      rcases Bool.or_eq_true_iff.mp halpha with hupper | hlower
      · exact .inl (of_decide_eq_true hupper)
      · exact .inr ((Bool.and_eq_true_iff.mp hlower).imp of_decide_eq_true of_decide_eq_true)
    simp only [Char.isDigit, ge_iff_le, UInt32.le_iff_toNat_le, Bool.and_eq_false_iff,
      decide_eq_false_iff_not, Char.reduceVal, UInt32.reduceToNat] at hrange ⊢
    omega
  · obtain rfl := beq_iff_eq.mp hunder
    rfl

/-- A character that can start a name starts nothing else. -/
theorem lexeme_of_isNameStart (h : isNameStart c = true) :
    lexeme c cs =
      .token (.name (String.ofList (c :: cs.takeWhile isNameChar))) (runLength isNameChar cs) := by
  have hne : ∀ d, isNameStart d = false → ¬(c == d) = true := by
    intro d hd hcd
    rw [beq_iff_eq.mp hcd, hd] at h
    cases h
  have hblank : ¬isBlank c = true := by
    intro hc
    have hchar := isNameChar_eq_false_of_isBlank hc
    rw [isNameChar_of_isNameStart h] at hchar
    cases hchar
  have hnumber : ¬(c == '-' || c.isDigit) = true := by
    rw [isDigit_eq_false_of_isNameStart h, Bool.or_false]
    exact hne '-' rfl
  rw [lexeme, if_neg hblank, if_neg (hne '#' rfl), if_neg (hne '"' rfl), if_neg (hne '.' rfl),
    if_neg hnumber, if_pos h]

/-- A name goes on up to a character that no name has. -/
theorem scan_name (hw : isName w = true) (hrest : startsWith isNameChar rest = false) :
    scan 0 (w.toList ++ rest) = .cons (.name w) (scan 0 rest) := by
  unfold isName at hw
  split at hw
  · cases hw
  · rename_i c cs hcs
    obtain ⟨hc, hall⟩ := Bool.and_eq_true_iff.mp hw
    have hrun : (cs ++ rest).takeWhile isNameChar = cs := by
      rw [List.takeWhile_append_of_pos (List.all_eq_true.mp hall)]
      cases rest with
      | nil => simp
      | cons d rest => rw [List.takeWhile_cons_of_neg (Bool.not_eq_true _ ▸ hrest), List.append_nil]
    rw [hcs, List.cons_append, scan, lexeme_of_isNameStart hc, runLength, hrun, ← hcs,
      String.ofList_toList]
    dsimp only
    rw [scan_eq_scan_drop, List.drop_left]

theorem scan_spelling (ht : t.Spelled) (hw : t.spelling? = some w)
    (hrest : isName w = true → startsWith isNameChar rest = false) :
    scan 0 (w.toList ++ rest) = .cons t (scan 0 rest) := by
  cases t with
  | name value =>
    obtain rfl := Option.some.inj hw
    exact scan_name ht.1 (hrest ht.1)
  | punctuator p =>
    obtain rfl := Option.some.inj hw
    cases p <;> rfl
  | int | float | string | blockString => cases hw

/-! ## Whole texts -/

theorem startsWith_ignored (h : ignoredFrom false cs = true)
    (hrest : cs = [] → startsWith isNameChar rest = false) :
    startsWith isNameChar (cs ++ rest) = false := by
  cases cs with
  | nil => exact hrest rfl
  | cons c cs =>
    have hc : c = '#' ∨ isBlank c = true := by
      rw [ignoredFrom] at h
      split at h
      · rename_i hc
        exact .inl (beq_iff_eq.mp hc)
      · exact .inr (Bool.and_eq_true_iff.mp h).1
    rw [List.cons_append, startsWith]
    rcases hc with rfl | hblank
    · rfl
    · exact isNameChar_eq_false_of_isBlank hblank

theorem startsWith_spelling (ht : t.Spelled) (hw : t.spelling? = some w) (h : isName w = false) :
    startsWith isNameChar (w.toList ++ rest) = false := by
  cases t with
  | name value =>
    obtain rfl := Option.some.inj hw
    cases h.symm.trans ht.1
  | punctuator p =>
    obtain rfl := Option.some.inj hw
    cases p <;> rfl
  | int | float | string | blockString => cases hw

/-- What follows a name does not go on with it. -/
theorem startsWith_weave {gap : Nat → String} {ts : List Token} (hts : ∀ t ∈ ts, t.Spelled)
    (hw : isName w = true) (h : Layout gap (w :: ts.filterMap Token.spelling?)) :
    startsWith isNameChar (weave (fun i => gap (i + 1)) (ts.filterMap Token.spelling?)).toList =
      false := by
  cases ts with
  | nil =>
    have hgap : startsWith isNameChar ((gap 1).toList ++ []) = false :=
      startsWith_ignored (h.ignored 1) fun _ => rfl
    rwa [List.append_nil] at hgap
  | cons t ts =>
    obtain ⟨ht, -⟩ := List.forall_mem_cons.mp hts
    obtain ⟨v, hv⟩ := Option.isSome_iff_exists.mp ht.2
    rw [List.filterMap_cons_some hv] at h ⊢
    rw [weave, String.toList_append, String.toList_append, List.append_assoc]
    refine startsWith_ignored (h.ignored 1) fun hempty => ?_
    -- with nothing in between, the next word is no name
    have hname : isName v = false := by
      cases hname : isName v with
      | false => rfl
      | true => exact absurd (String.toList_eq_nil_iff.mp hempty) (h.apart 0 w v rfl rfl hw hname)
    exact startsWith_spelling ht hv hname

/-- Spelled tokens are found again, however they are laid out. -/
theorem scan_weave {gap : Nat → String} {ts : List Token} (hts : ∀ t ∈ ts, t.Spelled)
    (h : Layout gap (ts.filterMap Token.spelling?)) :
    scan 0 (weave gap (ts.filterMap Token.spelling?)).toList = .ofTokens ts := by
  induction ts generalizing gap with
  | nil =>
    have hgap := scan_ignoredFrom (h.ignored 0) []
    rw [List.append_nil] at hgap
    exact hgap
  | cons t ts ih =>
    obtain ⟨ht, hts⟩ := List.forall_mem_cons.mp hts
    obtain ⟨w, hw⟩ := Option.isSome_iff_exists.mp ht.2
    rw [List.filterMap_cons_some hw] at h ⊢
    rw [weave, String.toList_append, String.toList_append, List.append_assoc]
    refine (scan_ignoredFrom (h.ignored 0) _).trans ?_
    rw [scan_spelling ht hw, ih hts h.tail]
    · rfl
    · exact fun hname => startsWith_weave hts hname h

end Lexer

end SchemaModels.Document
