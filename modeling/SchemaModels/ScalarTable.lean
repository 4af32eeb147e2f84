import SchemaModels.Settings

/-! # Scalar tables

Which type each scalar of a document is written as. -/

namespace SchemaModels

/-- The name of the type that admits every value. -/
def anyType : String := "Any"

/-- A target with a module in front: what stands before and after its last full stop. -/
def dotted? (target : String) : Option (String × String) :=
  (Text.splitLastDot target.toList).map fun p => (String.ofList p.1, String.ofList p.2)

/-- The name of a target without its module. -/
def shortName (target : String) : String :=
  match dotted? target with
  | some (_, name) => name
  | none => target

/-- The scalars of a document with their targets, and further targets that no scalar has. -/
structure ScalarTable where
  targets : Table String String
  unnamed : List String := []
  deriving Repr

namespace ScalarTable

variable {α : Type}

/-- The scalars that every schema has. -/
def builtin : List (String × String) :=
  [("ID", "str"), ("String", "str"), ("Boolean", "bool"), ("Int", "int"), ("Float", "float")]

/-- The entries of a scalar table: the built-in scalars, those that a document declares, which admit
every value, and last the overrides. Targets are of any type into which `ofText` takes texts. -/
def build (ofText : String → α) (custom : List String) (overrides : List (String × α)) :
    Table String α :=
  let builtins : Table String α := .ofList (builtin.map fun e => (e.1, ofText e.2))
  (custom.foldl (fun t name => t.insertNew name (ofText anyType)) builtins).insertAll overrides

/-- The table for the scalars that a document declares. -/
def ofCustom (custom : List String) (overrides : Overrides) : ScalarTable where
  targets := build id custom overrides.named.entries
  unnamed := overrides.unnamed

def target? (t : ScalarTable) (name : String) : Option String := t.targets.get? name

def contains (t : ScalarTable) (name : String) : Bool := t.targets.contains name

/-- The names that belong to scalar types: no declaration can have one of them. -/
def taken (t : ScalarTable) : List String :=
  ((t.targets.values ++ t.unnamed).map shortName) ++ [anyType]

/-- The entries of a table by name, with the overrides as a setting gives them. There is no order
among keys of which one is no name. -/
def listing (custom : List String) (overrides : Setting) :
    Except SettingFault (List (String × Setting)) := do
  let given ← overrides.mapping
  let some named := given.entries.mapM fun e => e.1.name?.map (·, e.2)
    | .error .scalarNamesNotComparable
  return (build Setting.ofString custom named).entries.mergeSort fun a b => a.1 ≤ b.1

end ScalarTable

end SchemaModels
