import SchemaModels.Proofs.TypeExpr
import SchemaModels.Text.Alphanumeric

/-! # The text of a type expression

Where scalars and declared types have names of letters, digits and underscores, the text of an expression
with references in quotes can be read in one way only: its start tells the outermost level
(`markOf_render`), and inside the brackets stands the text of what that level holds. Deleting the quotes
gives the unquoted text (`render_false`), in which a scalar and a declared type may look the same. -/

namespace SchemaModels

/-! ## Names and quotes -/

namespace Text

/-- Letters and digits of any script, and underscores, at least one of them. -/
def isPlainName (s : String) : Bool :=
  !s.isEmpty && s.toList.all fun c => isAlphanumeric c || c == '_'

/-- A text without its single quotes. -/
def withoutQuotes (s : String) : String := String.ofList (s.toList.filter (· != '\''))

theorem not_mem_of_isPlainName {s : String} (h : isPlainName s = true) {c : Char}
    (hc : (isAlphanumeric c || c == '_') = false) : c ∉ s.toList := by
  intro hmem
  have hall := (Bool.and_eq_true_iff.mp h).2
  exact Bool.eq_false_iff.mp hc (List.all_eq_true.mp hall c hmem)

theorem quote_not_mem_of_isPlainName {s : String} (h : isPlainName s = true) : '\'' ∉ s.toList :=
  not_mem_of_isPlainName h (by decide +kernel)

theorem bracket_not_mem_of_isPlainName {s : String} (h : isPlainName s = true) : '[' ∉ s.toList :=
  not_mem_of_isPlainName h (by decide +kernel)

theorem withoutQuotes_append (s t : String) :
    withoutQuotes (s ++ t) = withoutQuotes s ++ withoutQuotes t := by
  simp [withoutQuotes]

theorem withoutQuotes_of_not_mem {s : String} (h : '\'' ∉ s.toList) : withoutQuotes s = s := by
  have hkept : s.toList.filter (· != '\'') = s.toList := by
    refine List.filter_eq_self.mpr fun c hc => bne_iff_ne.mpr ?_
    rintro rfl
    exact h hc
  rw [withoutQuotes, hkept, String.ofList_toList]

end Text

namespace TypeExpr

open Text

/-- Whether all names in an expression are plain, no scalar is spelled like any value, and the innermost
expression is no blank. -/
def isNamed : TypeExpr → Bool
  | scalar primitive => isPlainName primitive && primitive != "Any"
  | dynamic => true
  | reference name => isPlainName name
  | list item => item.isNamed
  | optional inner => inner.isNamed
  | blank => false

/-! ## The innermost expression -/

theorem getLast?_parts (e : TypeExpr) : e.parts.getLast? = some e.leaf := by
  induction e with
  | list item ih | optional item ih =>
    rw [parts, List.getLast?_cons, ih]
    rfl
  | _ => rfl

theorem render_eq_none_iff (e : TypeExpr) (quoted : Bool) :
    e.render quoted = none ↔ e.leaf = .blank := by
  induction e with
  | scalar | dynamic | reference => simp [render, leaf]
  | list item ih | optional item ih => rw [render, Option.map_eq_none_iff, ih, leaf]
  | blank => exact iff_of_true rfl rfl

theorem leaf_ne_blank_of_isNamed {e : TypeExpr} (h : e.isNamed = true) : e.leaf ≠ .blank := by
  induction e with
  | list item ih | optional item ih => exact ih h
  | blank => cases h
  | _ => exact TypeExpr.noConfusion

/-! ## Reading the outermost level -/

/-- How the text of an expression starts, where this tells its outermost level. -/
def mark : TypeExpr → Option Char
  | list _ => some 'L'
  | optional _ => some 'O'
  | reference _ => some '\''
  | _ => none

/-- The start of a text, if the text has brackets or the start is a quote. -/
def markOf (s : String) : Option Char :=
  if '[' ∈ s.toList then s.toList.head? else s.toList.head?.filter (· == '\'')

theorem markOf_render {e : TypeExpr} {s : String} (he : e.isNamed = true)
    (h : e.render true = some s) : markOf s = e.mark := by
  cases e with
  | scalar primitive =>
    obtain rfl := Option.some.inj h
    have hname := (Bool.and_eq_true_iff.mp he).1
    rw [markOf, if_neg (bracket_not_mem_of_isPlainName hname)]
    refine Option.filter_eq_none_iff.mpr fun c hc hquote => ?_
    obtain rfl := beq_iff_eq.mp hquote
    exact quote_not_mem_of_isPlainName hname (List.mem_of_head? hc)
  | dynamic =>
    obtain rfl := Option.some.inj h
    decide
  | reference name =>
    obtain rfl := Option.some.inj h
    have hname : isPlainName name = true := he
    simp [markOf, mark, bracket_not_mem_of_isPlainName hname]
  | list item | optional item =>
    obtain ⟨t, -, rfl⟩ := Option.map_eq_some_iff.mp h
    simp [markOf, mark]
  | blank => cases he

theorem mark_eq_of_render_eq {e e' : TypeExpr} (he : e.isNamed = true) (he' : e'.isNamed = true)
    (h : e.render true = e'.render true) : e.mark = e'.mark := by
  obtain ⟨s, hs⟩ := exists_render (leaf_ne_blank_of_isNamed he) true
  rw [← markOf_render he hs, ← markOf_render he' (h ▸ hs)]

theorem enclosed_injective (p q : String) : Function.Injective fun s => p ++ s ++ q := by
  intro s t h
  have hlists := congrArg String.toList h
  simp only [String.toList_append] at hlists
  exact String.toList_inj.mp (List.append_cancel_left (List.append_cancel_right hlists))

/-- The text of an expression with references in quotes can be read in one way only. -/
theorem eq_of_render_eq {e e' : TypeExpr} (he : e.isNamed = true) (he' : e'.isNamed = true)
    (h : e.render true = e'.render true) : e = e' := by
  -- the marks agree, so the outermost levels do, or both expressions are a scalar or any value
  induction e generalizing e' with
  | scalar primitive =>
    have hany : primitive ≠ "Any" := bne_iff_ne.mp (Bool.and_eq_true_iff.mp he).2
    cases e' with
    | scalar primitive' => rw [Option.some.inj h]
    | dynamic => exact absurd (Option.some.inj h) hany
    | blank => cases he'
    | _ => cases mark_eq_of_render_eq he he' h
  | dynamic =>
    cases e' with
    | scalar primitive =>
      have hany : primitive ≠ "Any" := bne_iff_ne.mp (Bool.and_eq_true_iff.mp he').2
      exact absurd (Option.some.inj h).symm hany
    | dynamic => rfl
    | blank => cases he'
    | _ => cases mark_eq_of_render_eq he he' h
  | reference name =>
    cases e' with
    | reference name' => rw [enclosed_injective "'" "'" (Option.some.inj h)]
    | _ => cases mark_eq_of_render_eq he he' h
  | list item ih =>
    cases e' with
    | list item' =>
      have hitem : item.render true = item'.render true :=
        Option.map_injective (enclosed_injective "List[" "]") h
      have hnamed : item'.isNamed = true := he'
      rw [ih he hnamed hitem]
    | _ => cases mark_eq_of_render_eq he he' h
  | optional inner ih =>
    cases e' with
    | optional inner' =>
      have hinner : inner.render true = inner'.render true :=
        Option.map_injective (enclosed_injective "Optional[" "]") h
      have hnamed : inner'.isNamed = true := he'
      rw [ih he hnamed hinner]
    | _ => cases mark_eq_of_render_eq he he' h
  | blank => cases he

/-! ## Without quotes -/

theorem render_false {e : TypeExpr} (he : e.isNamed = true) :
    e.render false = (e.render true).map withoutQuotes := by
  induction e with
  | scalar primitive =>
    have hname := (Bool.and_eq_true_iff.mp he).1
    exact congrArg some (withoutQuotes_of_not_mem (quote_not_mem_of_isPlainName hname)).symm
  | dynamic => rfl
  | reference name =>
    have hname : withoutQuotes name = name := withoutQuotes_of_not_mem (quote_not_mem_of_isPlainName he)
    have hquoted : withoutQuotes ("'" ++ name ++ "'") = name := by
      have hquote : withoutQuotes "'" = "" := rfl
      rw [withoutQuotes_append, withoutQuotes_append, hname, hquote, String.empty_append,
        String.append_empty]
    exact congrArg some hquoted.symm
  | list item ih | optional item ih =>
    rw [render, render, ih he]
    cases item.render true with
    | none => rfl
    | some s =>
      refine congrArg some (Eq.symm ?_)
      rw [withoutQuotes_append, withoutQuotes_append]
      rfl
  | blank => rfl

/-! ## Written expressions -/

theorem write_eq_ok_iff {e : TypeExpr} {quoted : Bool} {s : String} :
    e.write quoted = .ok s ↔ e.render quoted = some s := by
  unfold write
  split <;> simp [*]

theorem write_eq_error_iff {e : TypeExpr} {quoted : Bool} :
    (∃ f, e.write quoted = .error f) ↔ e.leaf = .blank := by
  rw [← e.render_eq_none_iff quoted, write]
  split <;> simp [*]

theorem isReference_iff {e : TypeExpr} : e.isReference = true ↔ ∃ name, e.leaf = .reference name := by
  rw [isReference]
  cases e.leaf <;> simp

/-- Expressions with plain names are told apart by their quoted texts, and deleting the quotes gives the
unquoted one. Any expression can be written unless its innermost part is a blank, and is a reference exactly
if that part is a declared type. -/
theorem written_unambiguously :
    (∀ e e' : TypeExpr, e.isNamed = true → e'.isNamed = true → e.write true = e'.write true → e = e') ∧
      (∀ e : TypeExpr, e.isNamed = true →
        ∃ s, e.write true = .ok s ∧ e.write false = .ok (withoutQuotes s)) ∧
      (∀ (e : TypeExpr) (quoted : Bool),
        (∃ f, e.write quoted = .error f) ↔ e.parts.getLast? = some .blank) ∧
      ∀ e : TypeExpr, e.isReference = true ↔ ∃ name, e.parts.getLast? = some (.reference name) := by
  refine ⟨fun e e' he he' h => ?_, fun e he => ?_, fun e quoted => ?_, fun e => ?_⟩
  · obtain ⟨s, hs⟩ := exists_render (leaf_ne_blank_of_isNamed he) true
    have hs' := write_eq_ok_iff.mp (h ▸ write_eq_ok_iff.mpr hs)
    exact eq_of_render_eq he he' (hs.trans hs'.symm)
  · obtain ⟨s, hs⟩ := exists_render (leaf_ne_blank_of_isNamed he) true
    refine ⟨s, write_eq_ok_iff.mpr hs, write_eq_ok_iff.mpr ?_⟩
    rw [render_false he, hs, Option.map_some]
  · rw [getLast?_parts, Option.some_inj]
    exact write_eq_error_iff
  · simp only [getLast?_parts, Option.some_inj]
    exact isReference_iff

/-- A scalar and a declared type of one name are told apart, inside a list as well. -/
theorem written_unambiguously_list :
    ((list (scalar "List")).isNamed = true ∧ (list (reference "List")).isNamed = true) ∧
      (list (scalar "List")).write true ≠ (list (reference "List")).write true ∧
      ∃ s, (list (reference "List")).write true = .ok s ∧
        (list (reference "List")).write false = .ok (withoutQuotes s) := by
  have hscalar : (list (scalar "List")).isNamed = true := by decide +kernel
  have hreference : (list (reference "List")).isNamed = true := by decide +kernel
  refine ⟨⟨hscalar, hreference⟩, fun h => ?_, written_unambiguously.2.1 _ hreference⟩
  exact absurd (written_unambiguously.1 _ _ hscalar hreference h) (by decide)

end TypeExpr

end SchemaModels
