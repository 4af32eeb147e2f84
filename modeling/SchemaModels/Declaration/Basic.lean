import SchemaModels.Definition
import SchemaModels.Text.Lines

/-! # Declarations

The blocks of text that a module is made of: classes and union aliases. -/

namespace SchemaModels

/-- How a field is bound to its name in the schema when it is written under another one. -/
structure Alias where
  schemaName : String
  required : Bool
  deriving DecidableEq, Repr

/-- A field of a class, before it is written as a line. -/
structure Attribute where
  name : String
  annotation : String
  alias? : Option Alias := none
  deriving DecidableEq, Repr

def Alias.render (a : Alias) : String :=
  " = Field(" ++ (if a.required then "..." else "None") ++ ", alias='" ++ a.schemaName ++ "')"

/-- The line of a field. -/
def Attribute.line (a : Attribute) : String :=
  "    " ++ a.name ++ ": " ++ a.annotation ++ (a.alias?.map Alias.render).getD ""

/-- The line of an enum value. -/
def enumLine (value : String) : String := "    " ++ value ++ " = '" ++ value ++ "'"

/-- A block: the alias of a union, or a class with its bases and the lines of its body. -/
inductive Block
  | unionAlias (name : String) (members : List String)
  | classBody (name : String) (bases : List String) (body : List String)
  deriving DecidableEq, Repr

namespace Block

/-- The lines of a block. A class without a body passes. -/
def lines : Block → List String
  | unionAlias name members => [name ++ " = Union[" ++ ", ".intercalate members ++ "]"]
  | classBody name bases body =>
    ("class " ++ name ++ "(" ++ ", ".intercalate bases ++ "):") ::
      if body.isEmpty then ["    pass"] else body

/-- The text of a block, with no newline at the end of a class. -/
def text (b : Block) : String :=
  match b with
  | unionAlias .. => Text.joinLines b.lines
  | classBody .. => Text.trimNewlines (Text.joinLines b.lines)

end Block

/-- A declaration of the module, with the names that it has to stand after. -/
structure Declaration where
  name : String
  kind : Kind
  block : Block
  dependsOn : List String := []
  deriving DecidableEq, Repr

namespace Declaration

def ofEnum (name : String) (values : List String) : Declaration :=
  ⟨name, .enum, .classBody name ["str", "Enum"] (values.map enumLine), []⟩

/-- A model class. Its bases have to exist before it; without any it extends the base of models. -/
def ofModel (name : String) (kind : Kind) (bases body : List String) : Declaration :=
  ⟨name, kind, .classBody name (if bases.isEmpty then ["BaseModel"] else bases) body, bases⟩

end Declaration

end SchemaModels
