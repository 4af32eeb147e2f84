import SchemaModels.Distinct

/-! # Imports

What a module has to import: the features that its text uses, and names from further modules. Only
these two sets decide what its import lines are. -/

namespace SchemaModels

/-- The constructs of the target language that need an import. -/
inductive Feature
  | dynamic | optional | list | union | enum | fieldAlias | modelBase
  deriving DecidableEq, Repr

/-- A name of a module. -/
structure ImportedName where
  module : String
  name : String
  deriving DecidableEq, Repr

namespace Feature

def all : List Feature := [dynamic, optional, list, union, enum, fieldAlias, modelBase]

/-- The word for a feature. -/
def label : Feature → String
  | dynamic => "dynamic" | optional => "optional" | list => "list" | union => "union"
  | enum => "enum" | fieldAlias => "field_alias" | modelBase => "model_base"

def ofLabel? (s : String) : Option Feature := all.find? (·.label == s)

/-- The name that a feature imports. -/
def imported : Feature → ImportedName
  | enum => ⟨"enum", "Enum"⟩
  | dynamic => ⟨"typing", "Any"⟩
  | optional => ⟨"typing", "Optional"⟩
  | list => ⟨"typing", "List"⟩
  | union => ⟨"typing", "Union"⟩
  | modelBase => ⟨"pydantic", "BaseModel"⟩
  | fieldAlias => ⟨"pydantic", "Field"⟩

/-- The features in the order of their names on import lines. -/
def lineOrder : List Feature := [enum, dynamic, optional, list, union, modelBase, fieldAlias]

end Feature

structure Imports where
  features : List Feature := []
  names : List ImportedName := []
  deriving DecidableEq, Repr

namespace Imports

def register (i : Imports) (fs : List Feature) : Imports :=
  { i with features := Distinct.addAll i.features fs }

def registerName (i : Imports) (n : ImportedName) : Imports :=
  { i with names := Distinct.add i.names n }

/-- All that two sets of imports hold. -/
def merge (i j : Imports) : Imports :=
  ⟨Distinct.union i.features j.features, Distinct.union i.names j.names⟩

/-- Whether a feature is imported. A field alias comes with the base class of models. -/
def uses (i : Imports) (f : Feature) : Bool :=
  i.features.contains f || (f == .modelBase && i.features.contains .fieldAlias)

/-- The modules from which features import. -/
def featureModules : List String := ["enum", "typing", "pydantic"]

/-- The further modules of names, in order. -/
def extraModules (i : Imports) : List String :=
  ((i.names.map (·.module)).eraseDups.filter fun m => !featureModules.contains m).mergeSort

/-- The modules in the order of their lines. -/
def modules (i : Imports) : List String := "enum" :: i.extraModules ++ ["typing", "pydantic"]

/-- The names of a module that its features import. -/
def featureNames (i : Imports) (module : String) : List String :=
  (Feature.lineOrder.filter i.uses).filterMap fun f =>
    if f.imported.module == module then some f.imported.name else none

/-- The names on a module's line: those of features first, then the others in order. -/
def namesOf (i : Imports) (module : String) : List String :=
  let fromFeatures := i.featureNames module
  let others := (i.names.filter (·.module == module)).map (·.name)
  fromFeatures ++ (others.filter fun n => !fromFeatures.contains n).mergeSort

/-- The import lines, one for each module with a name to import. -/
def lines (i : Imports) : List String :=
  i.modules.filterMap fun m =>
    match i.namesOf m with
    | [] => none
    | ns => some ("from " ++ m ++ " import " ++ ", ".intercalate ns)

/-- The import lines as one text. -/
def header (i : Imports) : String := "\n".intercalate i.lines

end Imports

end SchemaModels
