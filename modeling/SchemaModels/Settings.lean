import SchemaModels.Setting.Text
import SchemaModels.Text.Occurs

/-! # Settings and the options they stand for

`Settings` holds the five settings as they were given. `Settings.options` says what they mean; values
of an unsuitable type mean something too, or give a fault where they are used. -/

namespace SchemaModels

/-- Why settings cannot be used. -/
inductive SettingFault
  | notAnObject
  | kindIsFixed
  | referencesAreFixed
  | exportReplaced
  | contentsNotObject
  | scalarsMissing
  | reservedMissing
  | scalarsNotIterable
  | scalarEntryNotIterable
  | scalarEntryNotPair
  | scalarNameNotPlain
  | scalarTargetNotText
  | scalarNamesNotComparable
  | reservedNotSearchable
  deriving DecidableEq, Repr

/-- The settings as given, or their defaults. The first two can be missing altogether, when all
settings were replaced at once. The last field tells whether the settings can still be listed: an entry
may take the name of the listing. -/
structure Settings where
  scalars : Option Setting := some (.object [])
  reservedFieldNames : Option Setting := some (.list [.ofString "copy"])
  aliasSuffix : Setting := .ofString "_"
  strictReferences : Setting := .bool false
  addGenerationComment : Setting := .bool false
  listable : Bool := true
  deriving Repr

namespace Settings

/-- The settings that hold these entries and no others. Scalars and reserved names have no default of
their own then. -/
def ofContents (entries : List (RawText × Setting)) : Settings :=
  let given := fun name => entries.lookup (.ofString name)
  let base : Settings := {}
  { scalars := given "scalars"
    reservedFieldNames := given "reserved_field_names"
    aliasSuffix := (given "alias_suffix").getD base.aliasSuffix
    strictReferences := (given "strict_references").getD base.strictReferences
    addGenerationComment := (given "add_generation_comment").getD base.addGenerationComment
    listable := (given "to_dict").isNone }

/-- Sets one entry. Names that stand for nothing are left out, as are settings that are missing, and two
names that every record keeps for itself are refused. -/
def set (s : Settings) : (name : String) → Setting → Except SettingFault Settings
  | "scalars", v => .ok { s with scalars := s.scalars.map fun _ => v }
  | "reserved_field_names", v =>
    .ok { s with reservedFieldNames := s.reservedFieldNames.map fun _ => v }
  | "alias_suffix", v => .ok { s with aliasSuffix := v }
  | "strict_references", v => .ok { s with strictReferences := v }
  | "add_generation_comment", v => .ok { s with addGenerationComment := v }
  | "to_dict", _ => .ok { s with listable := false }
  | "__dict__", .object entries => .ok (ofContents entries)
  | "__dict__", _ => .error .contentsNotObject
  | "__class__", _ => .error .kindIsFixed
  | "__weakref__", _ => .error .referencesAreFixed
  | _, _ => .ok s

/-- Sets the entry with a raw name, which has to be a name of characters to stand for anything. -/
def setRaw (s : Settings) (name : RawText) (v : Setting) : Except SettingFault Settings :=
  match name.toString? with
  | some name => s.set name v
  | none => .ok s

/-- Settings from the entries of an object. -/
def ofSetting : Setting → Except SettingFault Settings
  | .object entries => entries.foldlM (fun s e => s.setRaw e.1 e.2) {}
  | _ => .error .notAnObject

/-- All settings with their names. -/
def entries (s : Settings) : Except SettingFault (List (String × Setting)) := do
  if !s.listable then .error .exportReplaced
  let some scalars := s.scalars | .error .scalarsMissing
  let some reserved := s.reservedFieldNames | .error .reservedMissing
  return [("scalars", scalars), ("reserved_field_names", reserved), ("alias_suffix", s.aliasSuffix),
    ("strict_references", s.strictReferences), ("add_generation_comment", s.addGenerationComment)]

end Settings

/-! ## Scalar overrides -/

/-- One entry of a list of pairs: two elements, of which the first can be looked up. -/
def Setting.pair (v : Setting) : Except SettingFault (Setting.Key × Setting) :=
  match v.elements? with
  | none => .error .scalarEntryNotIterable
  | some [k, target] =>
    match k.key? with
    | some k => .ok (k, target)
    | none => .error .scalarNameNotPlain
  | some _ => .error .scalarEntryNotPair

/-- The entries of a map that is given as an object or as a list of pairs. Nothing, zero and empty
values give none. -/
def Setting.mapping (v : Setting) : Except SettingFault (Table Setting.Key Setting) :=
  if v.truthy then
    match v with
    | .object es => .ok (.ofList (es.map fun e => (.text e.1, e.2)))
    | v =>
      match v.elements? with
      | none => .error .scalarsNotIterable
      | some items => (items.mapM' Setting.pair).map Table.ofList
  else .ok ∅

/-- Scalar names with the types that they are written as. Targets whose key is no name belong to no
type, but the types they name are still taken. -/
structure Overrides where
  named : Table String String := ∅
  unnamed : List String := []
  deriving DecidableEq, Repr

/-- The name that a key is, if it is one. -/
def Setting.Key.name? : Setting.Key → Option String
  | .text name => name.toString?
  | _ => none

/-- Overrides from entries, all of whose targets have to be texts. -/
def Overrides.ofEntries (standIn : Char) :
    List (Setting.Key × Setting) → Except SettingFault Overrides
  | [] => .ok {}
  | (k, v) :: es => do
    let .text raw := v | .error .scalarTargetNotText
    let target := raw.toStringWith standIn
    let rest ← ofEntries standIn es
    match k.name? with
    | some name => return { rest with named := ⟨(name, target) :: rest.named.entries⟩ }
    | none => return { rest with unnamed := target :: rest.unnamed }

/-! ## Options -/

/-- The field names that are reserved: those in a list, those that occur in a text, or a fault of the
setting that shows when a name is looked for. -/
inductive ReservedNames
  | oneOf (names : List String)
  | partOf (text : String)
  | faulty (fault : SettingFault)
  deriving DecidableEq, Repr

namespace ReservedNames

/-- Whether a name is reserved. -/
def contains : ReservedNames → String → Except SettingFault Bool
  | oneOf names, name => .ok (names.contains name)
  | partOf text, name => .ok (Text.occursIn name.toList text.toList)
  | faulty fault, _ => .error fault

/-- The texts among the elements of a value are the names. -/
def ofSetting (standIn : Char) : Option Setting → ReservedNames
  | some (.list items) => .oneOf (items.filterMap fun | .text s => s.toString? | _ => none)
  | some (.object entries) => .oneOf (entries.filterMap (·.1.toString?))
  | some (.text s) => .partOf (s.toStringWith standIn)
  | some _ => .faulty .reservedNotSearchable
  | none => .faulty .reservedMissing

end ReservedNames

/-- What settings mean. -/
structure Options where
  overrides : Except SettingFault Overrides := .ok {}
  reserved : ReservedNames := .oneOf ["copy"]
  aliasSuffix : String := "_"
  strict : Bool := false
  comment : Bool := false

/-- Whether the texts of two options that can be written into a module are the same. -/
def Options.sameTexts (o p : Options) : Bool :=
  o.aliasSuffix == p.aliasSuffix &&
    match o.overrides, p.overrides with
    | .ok a, .ok b => a == b
    | _, _ => true

namespace Settings

/-- What settings mean, with a character in the place of each surrogate of their texts. -/
def optionsWith (standIn : Char) (s : Settings) : Options where
  overrides := do
    let some scalars := s.scalars | .error .scalarsMissing
    let table ← scalars.mapping
    Overrides.ofEntries standIn table.entries
  reserved := .ofSetting standIn s.reservedFieldNames
  aliasSuffix := s.aliasSuffix.display standIn
  strict := s.strictReferences.truthy
  comment := s.addGenerationComment.truthy

/-- What settings mean. -/
def options (s : Settings) : Options := s.optionsWith '\ufffd'

end Settings

end SchemaModels
