import SchemaModels.Table

/-! # Sorters

A sorter takes names, each with those that have to come before it, and passes names out as soon as
all of these are done. It first has to be asked for a cycle: names on one would never be passed out.

A sorter refuses what it cannot do, such as a name that it does not know or has not passed out. -/

namespace SchemaModels

/-- How far a name has come: it waits for some others, it has been passed out, or it is done. -/
inductive Progress
  | waiting (count : Nat)
  | out
  | done
  deriving DecidableEq, Repr

/-- What a sorter knows about a name: how far it has come, and the names that wait for it. -/
structure Sorter.Entry where
  progress : Progress := .waiting 0
  successors : List String := []
  deriving DecidableEq, Repr

/-- Names in the order in which they were first mentioned, those that are ready to be passed out, and
how many were passed out and done. -/
structure Sorter where
  entries : Table String Sorter.Entry := ∅
  ready : List String := []
  passedOut : Nat := 0
  finished : Nat := 0
  deriving DecidableEq, Repr

namespace Sorter

def names (s : Sorter) : List String := s.entries.keys

/-- The entry of a name. A name that was never mentioned waits for nothing, and nothing waits for it. -/
def entry (s : Sorter) (name : String) : Entry := (s.entries.get? name).getD {}

def put (s : Sorter) (name : String) (e : Entry) : Sorter :=
  { s with entries := s.entries.insert name e }

/-- Notes how far a name has come. -/
def move (s : Sorter) (name : String) (p : Progress) : Sorter :=
  s.put name { s.entry name with progress := p }

/-! ## Names -/

/-- An entry that waits for more names. -/
def Entry.await (e : Entry) (count : Nat) : Entry :=
  match e.progress with
  | .waiting n => { e with progress := .waiting (n + count) }
  | _ => e

/-- Notes under a name that another one waits for it. -/
def follow (name : String) (s : Sorter) (other : String) : Sorter :=
  let e := s.entry other
  s.put other { e with successors := e.successors ++ [name] }

/-- Adds a name that has to wait for others. -/
def add (s : Sorter) (name : String) (others : List String) : Sorter :=
  others.foldl (follow name) (s.put name ((s.entry name).await others.length))

/-- A sorter to which names are added, each with those that it has to wait for. -/
def ofRows (rows : List (String × List String)) : Sorter :=
  rows.foldl (fun s row => s.add row.1 row.2) {}

/-! ## Cycles

The search for a cycle: depth first, from each name in the order in which names were mentioned, along
the names that wait for it. -/

/-- The cycle that a path closes when it comes back to one of its names. The path is given from its
end. -/
def closeCycle (path : List String) (name : String) : List String :=
  name :: (path.takeWhile (· != name)).reverse ++ [name]

/-- Visits a name at the end of a path: the names seen after the visit, or a cycle. A path does not
repeat a name, so among `n` names no depth over `n` is needed. -/
def visit (next : String → List String) :
    (depth : Nat) → (path seen : List String) → (name : String) → Except (List String) (List String)
  | depth, path, seen, name =>
    if seen.contains name then
      if path.contains name then .error (closeCycle path name) else .ok seen
    else
      match depth with
      | 0 => .ok seen
      | depth + 1 =>
        (next name).foldlM (fun seen n => visit next depth (name :: path) seen n) (name :: seen)

/-- The first cycle that the search meets. -/
def findCycle (s : Sorter) : Option (List String) :=
  let next name := (s.entry name).successors
  match s.names.foldlM (fun seen name => visit next s.names.length [] seen name) [] with
  | .ok _ => none
  | .error cycle => some cycle

/-! ## Names that come -/

/-- Makes the names ready that wait for nothing. -/
def prepare (s : Sorter) : Sorter :=
  { s with ready := s.names.filter fun name => (s.entry name).progress == .waiting 0 }

/-- Whether there are names to be passed out or to be done. -/
def isActive (s : Sorter) : Bool := s.finished < s.passedOut || !s.ready.isEmpty

/-- Passes out a name that waits for nothing. -/
def pass (s : Sorter) (name : String) : Option Sorter := do
  let e ← s.entries.get? name
  if e.progress = .waiting 0 then return s.move name .out else none

/-- Passes out all names that are ready. -/
def takeReady (s : Sorter) : Option (List String × Sorter) := do
  let passed ← s.ready.foldlM pass s
  return (s.ready, { passed with ready := [], passedOut := s.passedOut + s.ready.length })

/-- Lets a name wait for one name less. It is ready when it waits for nothing. -/
def release (s : Sorter) (name : String) : Option Sorter := do
  let e ← s.entries.get? name
  match e.progress with
  | .waiting (count + 1) =>
    let s := s.move name (.waiting count)
    return if count = 0 then { s with ready := s.ready ++ [name] } else s
  | _ => none

/-- Notes that a name is done, which has been passed out. -/
def finish (s : Sorter) (name : String) : Option Sorter := do
  let e ← s.entries.get? name
  if e.progress = .out then
    let released ← e.successors.foldlM release (s.move name .done)
    return { released with finished := released.finished + 1 }
  else none

/-! ## Names that are not done

Only `finish` changes which names are done. -/

def unfinished (s : Sorter) : List String := s.names.filter fun name => (s.entry name).progress != .done

variable {s s' : Sorter} {name other : String} {e : Entry}

theorem entry_put : (s.put name e).entry other = if other = name then e else s.entry other := by
  split
  case isTrue h => rw [h, entry, put, Table.get?_insert_self, Option.getD_some]
  case isFalse h => rw [entry, put, Table.get?_insert_of_ne h, entry]

theorem entry_move {p : Progress} : (s.move name p).entry other =
    if other = name then { s.entry other with progress := p } else s.entry other := by
  rw [move, entry_put]
  split
  case isTrue h => rw [h]
  case isFalse => rfl

theorem names_put : (s.put name e).names = Distinct.add s.names name := Table.keys_insert

theorem entry_of_get? (h : s.entries.get? name = some e) : s.entry name = e := by
  rw [entry, h, Option.getD_some]

theorem names_move {p : Progress} (h : name ∈ s.names) : (s.move name p).names = s.names := by
  rw [move, names_put, Distinct.add, if_pos (List.contains_iff_mem.mpr h)]

theorem unfinished_move {p : Progress} (h : s.entries.get? name = some e)
    (hdone : (p != .done) = (e.progress != .done)) : (s.move name p).unfinished = s.unfinished := by
  rw [unfinished, unfinished, names_move (Table.mem_keys_iff.mpr ⟨e, h⟩)]
  refine List.filter_congr fun other _ => ?_
  rw [entry_move]
  split
  case isTrue hother => rw [hother, entry_of_get? h, ← hdone]
  case isFalse => rfl

theorem unfinished_foldlM {step : Sorter → String → Option Sorter}
    (hstep : ∀ {s name s'}, step s name = some s' → s'.unfinished = s.unfinished)
    {names : List String} (h : names.foldlM step s = some s') : s'.unfinished = s.unfinished := by
  induction names generalizing s with
  | nil =>
    cases h
    rfl
  | cons name names ih =>
    rw [List.foldlM_cons] at h
    obtain ⟨next, hnext, hrest⟩ := Option.bind_eq_some_iff.mp h
    exact (ih hrest).trans (hstep hnext)

theorem unfinished_pass (h : s.pass name = some s') : s'.unfinished = s.unfinished := by
  obtain ⟨e, he, h⟩ := Option.bind_eq_some_iff.mp h
  split at h
  case isTrue hwaiting =>
    cases h
    exact unfinished_move he (by rw [hwaiting]; rfl)
  case isFalse => cases h

theorem unfinished_takeReady {names : List String} (h : s.takeReady = some (names, s')) :
    s'.unfinished = s.unfinished := by
  obtain ⟨passed, hpassed, h⟩ := Option.bind_eq_some_iff.mp h
  cases h
  have hkept : passed.unfinished = s.unfinished := unfinished_foldlM unfinished_pass hpassed
  exact hkept

theorem unfinished_release (h : s.release name = some s') : s'.unfinished = s.unfinished := by
  obtain ⟨e, he, h⟩ := Option.bind_eq_some_iff.mp h
  split at h
  case h_1 count hwaiting =>
    have hmove : (s.move name (.waiting count)).unfinished = s.unfinished :=
      unfinished_move he (by rw [hwaiting]; rfl)
    obtain rfl := Option.some.inj h
    split
    · exact hmove
    · exact hmove
  case h_2 => cases h

/-- A name that is done is no longer among the others. -/
theorem length_unfinished_finish (h : s.finish name = some s') :
    s'.unfinished.length < s.unfinished.length := by
  obtain ⟨e, he, h⟩ := Option.bind_eq_some_iff.mp h
  have hname : name ∈ s.names := Table.mem_keys_iff.mpr ⟨e, he⟩
  split at h
  case isTrue hout =>
    obtain ⟨released, hreleased, h⟩ := Option.bind_eq_some_iff.mp h
    cases h
    have hdone : (s.move name .done).unfinished = s.unfinished.filter (· != name) := by
      rw [unfinished, unfinished, names_move hname, List.filter_filter]
      refine List.filter_congr fun other _ => ?_
      rw [entry_move]
      split
      case isTrue hother => simp [hother]
      case isFalse hother => simp [hother]
    have hmem : name ∈ s.unfinished := by
      rw [unfinished, List.mem_filter, entry_of_get? he, hout]
      exact ⟨hname, rfl⟩
    change released.unfinished.length < _
    rw [unfinished_foldlM unfinished_release hreleased, hdone]
    exact List.length_filter_lt_length_iff_exists.mpr ⟨name, hmem, by simp⟩
  case isFalse => cases h

end Sorter

end SchemaModels
