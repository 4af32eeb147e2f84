import SchemaModels.Proofs.Document.Lexing

/-! # Reading the tokens of items

The grammar reads the tokens of scalars and definitions as these scalars and definitions, if it has room
for all of their lists (`Parser.reads_document`). The parts of a definition that are empty leave no
tokens, so what comes next has to show that they are missing: a type ends where no mark follows it
(`Stops`), and a definition ends with the text or at the keyword of another one (`Ends`). Names are free
to be keywords. -/

namespace SchemaModels

/-! ## What can be spelled -/

namespace TypeRef

/-- How many lists of a type are inside each other. -/
def nesting : TypeRef Empty → Nat
  | named _ => 0
  | list item => item.nesting + 1
  | nonNull inner => inner.nesting

/-- Whether a type has no mark right after another one. -/
def markedOnce : TypeRef Empty → Bool
  | named _ | nonNull (named _) => true
  | list item | nonNull (list item) => item.markedOnce
  | nonNull (nonNull _) => false

/-- Whether a type is nothing but a name. -/
def isNamed : TypeRef Empty → Bool
  | named _ => true
  | list _ | nonNull _ => false

end TypeRef

/-- A content that can be spelled: with proper names and enum values, with names as the members of a
union, and with no mark on a marked type. -/
structure Content.Spellable (c : Content Empty) : Prop where
  names : ∀ n ∈ c.names, Document.isName n = true
  values : ∀ v ∈ c.values, v ∉ ["true", "false", "null"]
  members : ∀ r ∈ c.members, r.isNamed = true
  types : ∀ f ∈ c.fields, f.type.markedOnce = true

instance (c : Content Empty) : Decidable c.Spellable :=
  decidable_of_iff ((∀ n ∈ c.names, Document.isName n = true) ∧
      (∀ v ∈ c.values, v ∉ ["true", "false", "null"]) ∧ (∀ r ∈ c.members, r.isNamed = true) ∧
      ∀ f ∈ c.fields, f.type.markedOnce = true)
    ⟨fun ⟨names, values, members, types⟩ => ⟨names, values, members, types⟩,
      fun h => ⟨h.names, h.values, h.members, h.types⟩⟩

namespace Document

namespace Item

/-- An item that can be spelled. -/
def Spellable : Item → Prop
  | scalar name => isName name = true
  | definition name content => isName name = true ∧ content.Spellable

instance : DecidablePred Spellable
  | scalar name => inferInstanceAs (Decidable (isName name = true))
  | definition name content => inferInstanceAs (Decidable (isName name = true ∧ content.Spellable))

/-- The fields of an item. -/
def fields : Item → List (Field Empty)
  | scalar _ => []
  | definition _ content => content.fields

end Item

namespace Parser

variable {α β : Type} {p : Parser α} {f : α → Parser β} {s s' rest : List Token}

/-! ## Reading tokens -/

/-- What a parser makes of some tokens, and the tokens that it leaves if it does not fail. -/
def Reads (p : Parser α) (s : List Token) (r : Except SyntaxError α) (rest : List Token) : Prop :=
  p.run (.ofTokens s) = r.map (·, .ofTokens rest)

theorem Reads.pure (a : α) (s : List Token) : Reads (Pure.pure a) s (.ok a) s := rfl

theorem Reads.throw (e : SyntaxError) (s rest : List Token) :
    Reads (MonadExcept.throw e : Parser α) s (.error e) rest := rfl

theorem Reads.bind {a : α} {r : Except SyntaxError β} (hp : p.Reads s (.ok a) s')
    (hf : (f a).Reads s' r rest) : (p >>= f).Reads s r rest := by
  unfold Reads at hp ⊢
  rw [StateT.run_bind, hp]
  exact hf

theorem reads_get (s : List Token) : Reads get s (.ok (.ofTokens s)) s := rfl

theorem reads_peek (s : List Token) : Reads peek s (.ok s.head?) s := by
  cases s <;> rfl

theorem reads_advance (t : Token) (s : List Token) : Reads advance (t :: s) (.ok ()) s := by
  cases s <;> rfl

theorem reads_isAt (p : Punctuator) (s : List Token) :
    Reads (isAt p) s (.ok (s.head? == some (.punctuator p))) s :=
  (reads_peek s).bind (.pure _ s)

theorem reads_optional (p : Punctuator) (s : List Token) :
    Reads (optional p) (.punctuator p :: s) (.ok true) s := by
  refine (reads_isAt p _).bind ?_
  rw [List.head?_cons, beq_self_eq_true]
  exact (reads_advance _ s).bind (.pure true s)

theorem reads_optional_of_ne {p : Punctuator} (h : s.head? ≠ some (.punctuator p)) :
    Reads (optional p) s (.ok false) s := by
  refine (reads_isAt p s).bind ?_
  rw [beq_false_of_ne h]
  exact .pure false s

theorem reads_expect (p : Punctuator) (s : List Token) :
    Reads (expect p) (.punctuator p :: s) (.ok ()) s :=
  (reads_optional p s).bind (.pure () s)

theorem reads_name (n : String) (s : List Token) : Reads name (.name n :: s) (.ok n) s :=
  (reads_peek _).bind ((reads_advance _ s).bind (.pure n s))

theorem reads_optionalKeyword (word : String) (s : List Token) :
    Reads (optionalKeyword word) (.name word :: s) (.ok true) s := by
  refine (reads_peek _).bind ?_
  rw [List.head?_cons, beq_self_eq_true]
  exact (reads_advance _ s).bind (.pure true s)

theorem reads_optionalKeyword_of_ne {word : String} (h : s.head? ≠ some (.name word)) :
    Reads (optionalKeyword word) s (.ok false) s := by
  refine (reads_peek s).bind ?_
  rw [beq_false_of_ne h]
  exact .pure false s

theorem reads_description (n : String) (s : List Token) :
    Reads description (.name n :: s) (.ok ()) (.name n :: s) :=
  (reads_peek _).bind (.pure () _)

/-! ## Where there is no room -/

/-- A result for which there has to be room. -/
def guarded (fits : Bool) (a : α) : Except SyntaxError α := if fits then .ok a else .error .tooDeep

theorem Reads.bind_guarded {a : α} {b : β} {c d : Bool} (hp : p.Reads s (guarded c a) s')
    (hf : (f a).Reads s' (guarded d b) rest) : (p >>= f).Reads s (guarded (c && d) b) rest := by
  cases c with
  | true => exact hp.bind hf
  | false =>
    unfold Reads at hp ⊢
    rw [StateT.run_bind, hp]
    rfl

theorem Reads.bind_guarded_ok {a : α} {b : β} {c : Bool} (hp : p.Reads s (guarded c a) s')
    (hf : (f a).Reads s' (.ok b) rest) : (p >>= f).Reads s (guarded c b) rest := by
  rw [← Bool.and_true c]
  exact hp.bind_guarded hf

/-! ## Types -/

/-- Reads the mark after a type. -/
def markAfter (t : TypeRef Empty) : Parser (TypeRef Empty) := do
  if ← optional .bang then return .nonNull t else return t

theorem reads_markAfter (t : TypeRef Empty) (s : List Token) :
    Reads (markAfter t) (.punctuator .bang :: s) (.ok t.nonNull) s :=
  (reads_optional .bang s).bind (.pure _ s)

theorem reads_markAfter_of_ne (t : TypeRef Empty) (h : s.head? ≠ some (.punctuator .bang)) :
    Reads (markAfter t) s (.ok t) s :=
  (reads_optional_of_ne h).bind (.pure t s)

theorem typeWith_eq (item : Parser (TypeRef Empty)) :
    typeWith item = (do
      if ← optional .bracketL then
        let t ← item
        expect .bracketR
        markAfter t.list
      else
        let n ← name
        markAfter (.named n)) := by
  simp only [typeWith, markAfter, pure_bind, bind_map_left]

theorem reads_typeRefWithin_named {n : String} {t : TypeRef Empty} (room : Nat)
    (hmark : Reads (markAfter (.named n)) s (.ok t) rest) :
    Reads (typeRefWithin room) (.name n :: s) (.ok t) rest := by
  have htype : ∀ item, Reads (typeWith item) (.name n :: s) (.ok t) rest := by
    intro item
    rw [typeWith_eq]
    have hname : (Token.name n :: s).head? ≠ some (.punctuator .bracketL) := nofun
    exact (reads_optional_of_ne hname).bind ((reads_name n s).bind hmark)
  cases room with
  | zero => exact htype _
  | succ room => exact htype _

theorem reads_typeRefWithin_list {item t : TypeRef Empty} (room : Nat)
    (hitem : ∀ room, Reads (typeRefWithin room) s (guarded (item.nesting ≤ room) item)
      (.punctuator .bracketR :: s'))
    (hmark : Reads (markAfter item.list) s' (.ok t) rest) :
    Reads (typeRefWithin room) (.punctuator .bracketL :: s) (guarded (item.nesting + 1 ≤ room) t)
      rest := by
  cases room with
  | zero => exact (reads_optional .bracketL s).bind (.throw .tooDeep s rest)
  | succ room =>
    rw [typeRefWithin, typeWith_eq]
    refine (reads_optional .bracketL s).bind ?_
    have hfits : decide (item.nesting + 1 ≤ room + 1) = decide (item.nesting ≤ room) :=
      decide_eq_decide.mpr Nat.add_le_add_iff_right
    rw [hfits]
    exact (hitem room).bind_guarded_ok ((reads_expect .bracketR s').bind hmark)

/-- A type is read back if there is room for its lists, whatever follows it but a mark. -/
theorem reads_typeRefWithin {t : TypeRef Empty} (ht : t.markedOnce = true) (room : Nat)
    (hrest : rest.head? ≠ some (.punctuator .bang)) :
    Reads (typeRefWithin room) (t.tokens ++ rest) (guarded (t.nesting ≤ room) t) rest := by
  -- a mark is read with the type in front of it, so a type comes with its mark in each case
  fun_induction TypeRef.markedOnce t generalizing rest room with
  | case1 n => exact reads_typeRefWithin_named room (reads_markAfter_of_ne _ hrest)
  | case2 n => exact reads_typeRefWithin_named room (reads_markAfter _ rest)
  | case3 item ih =>
    rw [TypeRef.tokens, List.cons_append, List.cons_append, List.append_assoc]
    exact reads_typeRefWithin_list room (fun room => ih ht room nofun) (reads_markAfter_of_ne _ hrest)
  | case4 item ih =>
    rw [TypeRef.tokens, TypeRef.tokens, List.append_assoc, List.cons_append, List.cons_append,
      List.append_assoc]
    exact reads_typeRefWithin_list room (fun room => ih ht room nofun) (reads_markAfter _ rest)
  | case5 => cases ht

/-! ## Fields and values -/

/-- Tokens that start with a name or a brace, or none at all: nothing that a type, a directive or a
list with separators could go on with. -/
def Stops : List Token → Prop
  | [] | .name _ :: _ | .punctuator .braceL :: _ | .punctuator .braceR :: _ => True
  | _ => False

theorem Stops.head?_ne (h : Stops s) (q : Punctuator) (hl : q ≠ .braceL) (hr : q ≠ .braceR) :
    s.head? ≠ some (.punctuator q) := by
  intro hs
  unfold Stops at h
  split at h
  · cases hs
  · cases hs
  · exact hl (Token.punctuator.inj (Option.some.inj hs)).symm
  · exact hr (Token.punctuator.inj (Option.some.inj hs)).symm
  · exact h

theorem reads_directives_of_ne (h : s.head? ≠ some (.punctuator .at)) :
    Reads directives s (.ok false) s := by
  refine (reads_isAt .at s).bind ?_
  rw [beq_false_of_ne h]
  exact .pure false s

theorem reads_directives (h : Stops s) : Reads directives s (.ok false) s :=
  reads_directives_of_ne (h.head?_ne .at nofun nofun)

/-- Whether there is room for all lists in the type of a field. -/
def fits (f : Field Empty) : Bool := f.type.nesting ≤ room

theorem reads_field {f : Field Empty} (hf : f.type.markedOnce = true) (h : Stops rest) :
    Reads field (f.tokens ++ rest) (guarded (fits f) f) rest := by
  refine (reads_description f.name _).bind ((reads_name f.name _).bind ?_)
  -- the colon shows that there are no arguments
  have harguments : Reads (optionalMany .parenL inputValue .parenR)
      (.punctuator .colon :: f.type.tokens ++ rest) (.ok [])
      (.punctuator .colon :: f.type.tokens ++ rest) :=
    (reads_isAt .parenL _).bind (.pure [] _)
  refine harguments.bind ((reads_expect .colon _).bind ?_)
  have htype := reads_typeRefWithin hf room (h.head?_ne .bang nofun nofun)
  exact htype.bind_guarded_ok ((reads_directives h).bind (.pure f rest))

theorem reads_inputValue {f : Field Empty} (hf : f.type.markedOnce = true) (h : Stops rest) :
    Reads inputValue (f.tokens ++ rest) (guarded (fits f) f) rest := by
  refine (reads_description f.name _).bind ((reads_name f.name _).bind ?_)
  refine (reads_expect .colon _).bind ?_
  have htype := reads_typeRefWithin hf room (h.head?_ne .bang nofun nofun)
  have hdefault : Reads defaultValue rest (.ok ()) rest :=
    (reads_optional_of_ne (h.head?_ne .equals nofun nofun)).bind (.pure () rest)
  exact htype.bind_guarded_ok (hdefault.bind ((reads_directives h).bind (.pure f rest)))

theorem reads_enumValue {v : String} (hv : v ∉ reservedValues) (h : Stops rest) :
    Reads enumValue (.name v :: rest) (.ok v) rest := by
  refine (reads_description v rest).bind ((reads_peek _).bind ?_)
  have hfree : (Token.name v).value?.any reservedValues.contains = false := by
    rw [Token.value?, Option.any_some, ← Bool.not_eq_true, List.contains_iff_mem]
    exact hv
  simp only [List.head?_cons, hfree]
  exact (reads_name v rest).bind ((reads_directives h).bind (.pure v rest))

/-! ## Lists -/

section

variable {item : Parser α} {tokens : α → List Token} {fits : α → Bool} {l : List α}

/-- There are at least as many tokens as items. -/
theorem length_le_flatMap (h : ∀ a ∈ l, tokens a ≠ []) : l.length ≤ (l.flatMap tokens).length := by
  induction l with
  | nil => exact Nat.zero_le _
  | cons a l ih =>
    obtain ⟨ha, hl⟩ := List.forall_mem_cons.mp h
    have hpos := List.length_pos_iff.mpr ha
    have hrest := ih hl
    rw [List.flatMap_cons, List.length_append, List.length_cons]
    omega

/-- Items that start with a name are read up to the brace that closes them. -/
theorem reads_itemsThen {bound : Nat} (hl : l ≠ []) (hbound : l.length ≤ bound)
    (hname : ∀ a ∈ l, ∃ n ts, tokens a = .name n :: ts)
    (hitem : ∀ a ∈ l, ∀ rest, Stops rest → Reads item (tokens a ++ rest) (guarded (fits a) a) rest) :
    Reads (itemsThen item .braceR bound) (l.flatMap tokens ++ .punctuator .braceR :: rest)
      (guarded (l.all fits) l) rest := by
  induction l generalizing bound with
  | nil => exact absurd rfl hl
  | cons a l ih =>
    obtain ⟨ha, hitems⟩ := List.forall_mem_cons.mp hitem
    obtain ⟨-, hnames⟩ := List.forall_mem_cons.mp hname
    cases bound with
    | zero => simp at hbound
    | succ bound =>
      rw [List.flatMap_cons, List.append_assoc, List.all_cons]
      cases l with
      | nil =>
        rw [List.all_nil]
        have hstops : Stops (.punctuator .braceR :: rest) := trivial
        exact (ha _ hstops).bind_guarded ((reads_optional .braceR rest).bind (.pure [a] rest))
      | cons b l =>
        -- the name of the next item shows that the list goes on
        obtain ⟨n, ts, hb⟩ := hnames b List.mem_cons_self
        have hnext : ∃ s, (b :: l).flatMap tokens ++ .punctuator .braceR :: rest = .name n :: s := by
          rw [List.flatMap_cons, hb]
          exact ⟨_, rfl⟩
        have hfew : (b :: l).length ≤ bound := Nat.le_of_succ_le_succ hbound
        have hrest := ih (List.cons_ne_nil b l) hfew hnames hitems
        obtain ⟨s, hs⟩ := hnext
        rw [hs] at hrest ⊢
        have hstops : Stops (.name n :: s) := trivial
        have hopen : Reads (optional .braceR) (.name n :: s) (.ok false) (.name n :: s) :=
          reads_optional_of_ne nofun
        exact (ha _ hstops).bind_guarded (hopen.bind (hrest.bind_guarded_ok (.pure _ rest)))

/-- Items in braces are read back, with nothing for no items. -/
theorem reads_optionalMany (hrest : rest.head? ≠ some (.punctuator .braceL))
    (hname : ∀ a ∈ l, ∃ n ts, tokens a = .name n :: ts)
    (hitem : ∀ a ∈ l, ∀ rest, Stops rest → Reads item (tokens a ++ rest) (guarded (fits a) a) rest) :
    Reads (optionalMany .braceL item .braceR) (braced (l.map tokens) ++ rest) (guarded (l.all fits) l)
      rest := by
  refine (reads_isAt .braceL _).bind ?_
  cases l with
  | nil =>
    have hbrace : (braced ([].map tokens) ++ rest).head? ≠ some (.punctuator .braceL) := hrest
    rw [beq_false_of_ne hbrace]
    exact .pure [] rest
  | cons a l =>
    have hbraced : braced ((a :: l).map tokens) ++ rest =
        .punctuator .braceL :: ((a :: l).flatMap tokens ++ .punctuator .braceR :: rest) := by
      simp [braced, List.flatMap_def]
    rw [hbraced, List.head?_cons, beq_self_eq_true]
    refine (reads_expect .braceL _).bind ((reads_get _).bind ?_)
    refine reads_itemsThen (List.cons_ne_nil a l) ?_ hname hitem
    have hcount : (a :: l).length ≤ ((a :: l).flatMap tokens).length := by
      refine length_le_flatMap fun b hb => ?_
      obtain ⟨n, ts, hts⟩ := hname b hb
      rw [hts]
      exact List.cons_ne_nil _ ts
    rw [TokenStream.length_ofTokens, List.length_append]
    omega

end

/-- Names after the first one are read back, each after its separator. -/
theorem reads_furtherItems {sep : Punctuator} {ns : List String} {bound : Nat}
    (hbound : ns.length ≤ bound) (hrest : rest.head? ≠ some (.punctuator sep)) :
    Reads (furtherItems sep name bound)
      (ns.flatMap (fun n => [.punctuator sep, .name n]) ++ rest) (.ok ns) rest := by
  induction ns generalizing bound with
  | nil =>
    cases bound with
    | zero => exact .pure [] rest
    | succ bound => exact (reads_optional_of_ne hrest).bind (.pure [] rest)
  | cons n ns ih =>
    cases bound with
    | zero => cases hbound
    | succ bound =>
      have hfurther := ih (Nat.le_of_succ_le_succ hbound)
      exact (reads_optional sep _).bind ((reads_name n _).bind (hfurther.bind (.pure _ rest)))

theorem separated_names (sep : Punctuator) (n : String) (ns : List String) :
    separated sep ((n :: ns).map fun n => [.name n]) =
      .name n :: ns.flatMap fun n => [.punctuator sep, .name n] := by
  induction ns generalizing n with
  | nil => rfl
  | cons m ns ih =>
    change .name n :: .punctuator sep :: separated sep ((m :: ns).map fun n => [.name n]) = _
    rw [ih]
    rfl

theorem reads_delimited {sep : Punctuator} {ns : List String} (hns : ns ≠ [])
    (hrest : rest.head? ≠ some (.punctuator sep)) :
    Reads (delimited sep name) (separated sep (ns.map fun n => [.name n]) ++ rest) (.ok ns) rest := by
  cases ns with
  | nil => exact absurd rfl hns
  | cons n ns =>
    rw [separated_names, List.cons_append]
    have hfirst : ∀ s, Reads (optional sep) (.name n :: s) (.ok false) (.name n :: s) :=
      fun s => reads_optional_of_ne nofun
    refine (hfirst _).bind ((reads_name n _).bind ((reads_get _).bind ?_))
    refine (reads_furtherItems ?_ hrest).bind (.pure _ rest)
    have hcount : ns.length ≤ (ns.flatMap fun n => [Token.punctuator sep, .name n]).length :=
      length_le_flatMap fun n _ => List.cons_ne_nil _ _
    rw [TokenStream.length_ofTokens, List.length_append]
    omega

/-! ## Items -/

/-- The end of the tokens or the start of another item. -/
def Ends : List Token → Prop
  | [] => True
  | .name n :: _ => n ≠ "implements"
  | _ => False

theorem Ends.stops (h : Ends s) : Stops s := by
  unfold Ends at h
  split at h
  · trivial
  · trivial
  · cases h

theorem Ends.head?_ne (h : Ends s) (q : Punctuator) : s.head? ≠ some (.punctuator q) := by
  intro hs
  unfold Ends at h
  split at h
  · cases hs
  · cases hs
  · exact h

theorem Ends.head?_ne_implements (h : Ends s) : s.head? ≠ some (.name "implements") := by
  intro hs
  unfold Ends at h
  split at h
  · cases hs
  · exact h (Token.name.inj (Option.some.inj hs))
  · exact h

theorem Ends.stops_braced (h : Ends rest) (parts : List (List Token)) :
    Stops (braced parts ++ rest) := by
  cases parts with
  | nil => exact h.stops
  | cons part parts => trivial

theorem Ends.braced_ne_implements (h : Ends rest) (parts : List (List Token)) :
    (braced parts ++ rest).head? ≠ some (.name "implements") := by
  cases parts with
  | nil => exact h.head?_ne_implements
  | cons part parts => nofun

theorem reads_no_interfaces (hs : s.head? ≠ some (.name "implements")) :
    Reads interfaces s (.ok []) s :=
  (reads_optionalKeyword_of_ne hs).bind (.pure [] s)

theorem reads_interfaces {ns : List String} (h : Stops s) (hs : s.head? ≠ some (.name "implements")) :
    Reads interfaces (opened (.name "implements") .amp (ns.map fun n => [.name n]) ++ s) (.ok ns)
      s := by
  cases ns with
  | nil => exact reads_no_interfaces hs
  | cons n ns =>
    refine (reads_optionalKeyword "implements" _).bind ?_
    exact reads_delimited (List.cons_ne_nil n ns) (h.head?_ne .amp nofun nofun)

theorem exists_name_tokens (f : Field Empty) : ∃ n ts, f.tokens = .name n :: ts :=
  ⟨f.name, _, rfl⟩

theorem reads_fields {fs : List (Field Empty)} (hfs : ∀ f ∈ fs, f.type.markedOnce = true)
    (h : Ends rest) :
    Reads fields (braced (fs.map Field.tokens) ++ rest) (guarded (fs.all fits) fs) rest :=
  reads_optionalMany (h.head?_ne .braceL) (fun f _ => exists_name_tokens f)
    fun f hf _ hstops => reads_field (hfs f hf) hstops

theorem reads_inputFields {fs : List (Field Empty)} (hfs : ∀ f ∈ fs, f.type.markedOnce = true)
    (h : Ends rest) :
    Reads (optionalMany .braceL inputValue .braceR) (braced (fs.map Field.tokens) ++ rest)
      (guarded (fs.all fits) fs) rest :=
  reads_optionalMany (h.head?_ne .braceL) (fun f _ => exists_name_tokens f)
    fun f hf _ hstops => reads_inputValue (hfs f hf) hstops

theorem reads_enumValues {vs : List String} (hvs : ∀ v ∈ vs, v ∉ reservedValues) (h : Ends rest) :
    Reads (optionalMany .braceL enumValue .braceR) (braced (vs.map fun v => [.name v]) ++ rest)
      (.ok vs) rest := by
  have hfits : vs.all (fun _ => true) = true := List.all_eq_true.mpr fun _ _ => rfl
  have hvalues : Reads (optionalMany .braceL enumValue .braceR)
      (braced (vs.map fun v => [.name v]) ++ rest) (guarded (vs.all fun _ => true) vs) rest :=
    reads_optionalMany (h.head?_ne .braceL) (fun v _ => ⟨v, [], rfl⟩)
      fun v hv _ hstops => reads_enumValue (hvs v hv) hstops
  rwa [hfits] at hvalues

theorem reads_unionBody (n : String) {ns : List String} (h : Ends rest) :
    Reads unionBody
      (.name n :: (opened (.punctuator .equals) .pipe (ns.map fun n => [.name n]) ++ rest))
      (.ok ⟨n, .union (ns.map .named), !ns.isEmpty⟩) rest := by
  refine (reads_name n _).bind ?_
  cases ns with
  | nil =>
    refine (reads_directives h.stops).bind ?_
    exact (reads_optional_of_ne (h.head?_ne .equals)).bind (.pure _ rest)
  | cons m ns =>
    have hequals : ∀ s, Reads directives (.punctuator .equals :: s) (.ok false) _ :=
      fun s => reads_directives_of_ne nofun
    refine (hequals _).bind ((reads_optional .equals _).bind ?_)
    exact (reads_delimited (List.cons_ne_nil m ns) (h.head?_ne .pipe)).bind (.pure _ rest)

/-- A keyword leads to the rest of its definition. -/
theorem reads_node {word : String} {p : Parser Node} {r : Except SyntaxError Node}
    (hp : definition? word = some p) (h : Reads p s r rest) : Reads node (.name word :: s) r rest := by
  refine (reads_isAt .braceL _).bind ((reads_peek _).bind ?_)
  change Reads (keywordDefinition false (some (.name word))) _ _ _
  unfold keywordDefinition
  simp only [hp]
  exact (reads_description word s).bind ((reads_advance _ s).bind h)

/-- A definition is read from what follows its keyword; what its body tells about its parts is left
out. -/
theorem reads_definition {n : String} {content : Content Empty} {c : Bool} (word : String)
    (p : Parser Body) (hasPart : Bool)
    (hp : definition? word = some (p >>= fun b => pure (.definition b.name b.content)))
    (h : Reads p s (guarded c ⟨n, content, hasPart⟩) rest) :
    Reads node (.name word :: s) (guarded c (.definition n content)) rest :=
  reads_node hp (h.bind_guarded_ok (.pure _ rest))

theorem exists_names {members : List (TypeRef Empty)} (h : ∀ r ∈ members, r.isNamed = true) :
    ∃ ns : List String, members = ns.map .named := by
  induction members with
  | nil => exact ⟨[], rfl⟩
  | cons r members ih =>
    obtain ⟨hr, hmembers⟩ := List.forall_mem_cons.mp h
    obtain ⟨ns, rfl⟩ := ih hmembers
    cases r with
    | named n => exact ⟨n :: ns, rfl⟩
    | list | nonNull => cases hr
    | other gap => exact gap.elim

/-- The tokens of a definition are read as this definition, if there is room for its lists. -/
theorem reads_definitionTokens {n : String} {c : Content Empty} (hc : c.Spellable) (h : Ends rest) :
    Reads node (definitionTokens n c ++ rest) (guarded (c.fields.all fits) (.definition n c)) rest := by
  cases c with
  | enum values =>
    refine reads_definition "enum" enumBody (!values.isEmpty) rfl ((reads_name n _).bind ?_)
    refine (reads_directives (h.stops_braced _)).bind ?_
    exact (reads_enumValues hc.values h).bind (.pure _ rest)
  | union members =>
    obtain ⟨ns, rfl⟩ := exists_names hc.members
    have hmembers : (ns.map TypeRef.named).map TypeRef.tokens = ns.map fun n => [.name n] :=
      List.map_map
    rw [definitionTokens, hmembers]
    exact reads_definition "union" unionBody (!ns.isEmpty) rfl (reads_unionBody n h)
  | interface fields =>
    refine reads_definition "interface" interfaceBody (!fields.isEmpty) rfl ((reads_name n _).bind ?_)
    refine (reads_no_interfaces (h.braced_ne_implements _)).bind ?_
    refine (reads_directives (h.stops_braced _)).bind ?_
    exact (reads_fields hc.types h).bind_guarded_ok (.pure _ rest)
  | object fields interfaces =>
    rw [definitionTokens, List.append_assoc]
    refine reads_definition "type" objectBody (!interfaces.isEmpty || false || !fields.isEmpty) rfl ?_
    refine (reads_name n _).bind ?_
    refine (reads_interfaces (h.stops_braced _) (h.braced_ne_implements _)).bind ?_
    refine (reads_directives (h.stops_braced _)).bind ?_
    exact (reads_fields hc.types h).bind_guarded_ok (.pure _ rest)
  | input fields =>
    refine reads_definition "input" inputBody (!fields.isEmpty) rfl ((reads_name n _).bind ?_)
    refine (reads_directives (h.stops_braced _)).bind ?_
    exact (reads_inputFields hc.types h).bind_guarded_ok (.pure _ rest)
  | other gap => exact gap.elim

/-- Whether there is room for all lists of an item. -/
def fitsItem (item : Item) : Bool := item.fields.all fits

theorem reads_item {item : Item} (hitem : item.Spellable) (h : Ends rest) :
    Reads node (item.tokens ++ rest) (guarded (fitsItem item) item.node) rest := by
  cases item with
  | scalar n =>
    exact reads_node rfl ((reads_name n rest).bind ((reads_directives h.stops).bind (.pure _ rest)))
  | definition n c => exact reads_definitionTokens hitem.2 h

/-! ## Documents -/

/-- Every item opens with a keyword of its own. -/
theorem exists_keyword (item : Item) :
    ∃ word ts, item.tokens = .name word :: ts ∧ word ≠ "implements" := by
  cases item with
  | scalar n => exact ⟨"scalar", _, rfl, by decide⟩
  | definition n c =>
    cases c with
    | enum => exact ⟨"enum", _, rfl, by decide⟩
    | union => exact ⟨"union", _, rfl, by decide⟩
    | interface => exact ⟨"interface", _, rfl, by decide⟩
    | object => exact ⟨"type", _, rfl, by decide⟩
    | input => exact ⟨"input", _, rfl, by decide⟩
    | other gap => exact gap.elim

theorem reads_nodes {items : List Item} {bound : Nat} (hne : items ≠ [])
    (hbound : items.length ≤ bound) (hitems : ∀ item ∈ items, item.Spellable) :
    Reads (nodes bound) (items.flatMap Item.tokens)
      (guarded (items.all fitsItem) (items.map Item.node)) [] := by
  induction items generalizing bound with
  | nil => exact absurd rfl hne
  | cons item items ih =>
    obtain ⟨hitem, hitems⟩ := List.forall_mem_cons.mp hitems
    cases bound with
    | zero => cases hbound
    | succ bound =>
      rw [List.flatMap_cons, List.all_cons]
      cases items with
      | nil =>
        have hends : Ends [] := trivial
        exact (reads_item hitem hends).bind_guarded ((reads_peek []).bind (.pure _ []))
      | cons next items =>
        -- the keyword of the next item ends this one
        obtain ⟨word, ts, hnext, hword⟩ := exists_keyword next
        have hrest := ih (List.cons_ne_nil next items) (Nat.le_of_succ_le_succ hbound) hitems
        rw [List.flatMap_cons, hnext, List.cons_append] at hrest ⊢
        have hends : Ends (.name word :: (ts ++ items.flatMap Item.tokens)) := hword
        refine (reads_item hitem hends).bind_guarded ((reads_peek _).bind ?_)
        exact hrest.bind_guarded_ok (.pure _ [])

theorem reads_document_of_nodes {ns : List Node} {c : Bool}
    (h : Reads (nodes ((TokenStream.ofTokens s).length + 1)) s (guarded c ns) []) :
    Reads document s (guarded c ⟨ns⟩) [] := by
  cases s with
  | nil => exact (reads_get _).bind ((reads_get _).bind (h.bind_guarded_ok (.pure _ [])))
  | cons t s => exact (reads_get _).bind ((reads_get _).bind (h.bind_guarded_ok (.pure _ [])))

/-- The tokens of items are read as these items, if there is room for all lists. -/
theorem reads_document {items : List Item} (hne : items ≠ [])
    (hitems : ∀ item ∈ items, item.Spellable) :
    Reads document (items.flatMap Item.tokens)
      (guarded (items.all fitsItem) ⟨items.map Item.node⟩) [] := by
  have hcount : items.length ≤ (items.flatMap Item.tokens).length := by
    refine length_le_flatMap fun item _ => ?_
    obtain ⟨word, ts, hts, -⟩ := exists_keyword item
    rw [hts]
    exact List.cons_ne_nil _ ts
  refine reads_document_of_nodes (reads_nodes hne ?_ hitems)
  rw [TokenStream.length_ofTokens]
  omega

end Parser

end Document

end SchemaModels
