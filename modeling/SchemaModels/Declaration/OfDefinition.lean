import SchemaModels.Declaration.Basic
import SchemaModels.Text.Keyword
import SchemaModels.Text.SnakeCase
import SchemaModels.TypeExpr.OfRef

/-! # From definitions to declarations

What a definition is written as depends on the options and the scalar table only, not on the
definitions around it. -/

namespace SchemaModels

/-! ## Fields -/

/-- The attribute for a field of a resolved type. A reserved name gets a suffix and keeps the name of
the schema as its alias; any other keyword is no name for an attribute. -/
def Options.attribute (o : Options) (owner name : String) (type : ResolvedType) :
    Written Attribute := do
  let snake := Text.snakeCase name
  if ← Written.ofExcept ((o.reserved.contains snake).mapError .setting) then
    Written.use (.ofFeatures [.fieldAlias])
    let annotation ← Written.ofExcept (type.expr.write true)
    return ⟨snake ++ o.aliasSuffix, annotation, some ⟨name, !type.expr.isNullable⟩⟩
  else if Text.isKeyword snake then .fail (.invalidIdentifier owner name)
  else
    let annotation ← Written.ofExcept (type.expr.write true)
    return ⟨snake, annotation, none⟩

/-- The attribute for a field. -/
def Options.attributeOf (o : Options) (t : ScalarTable) (owner : String) (f : Field Gap) :
    Written Attribute := do
  let type ← t.annotate f.type
  o.attribute owner f.name type

/-- The lines of a class with these fields. -/
def Options.fieldLines (o : Options) (t : ScalarTable) (owner : String)
    (fields : List (Field Gap)) : Written (List String) := do
  let attributes ← fields.mapM' (o.attributeOf t owner)
  return attributes.map Attribute.line

/-! ## Definitions

Each kind of definition adds itself to the graph, and what it has to stand after. -/

/-- An enum, none of whose values may be a keyword. -/
def declareEnum (name : String) (values : List String) : Written Declaration := do
  match values.find? Text.isKeyword with
  | some value => .fail (.invalidIdentifier name value)
  | none =>
    Written.use (.ofFeatures [.enum])
    Written.call (.node name)
    return .ofEnum name values

/-- Puts the type of a member among those on which a union depends, if it is a declared one. -/
def addMember (name : String) (dependsOn : List String) (r : ResolvedType) :
    Written (List String) :=
  if r.expr.isReference then do
    Written.call (.edge name r.id)
    return dependsOn ++ [r.id]
  else return dependsOn

/-- A union alias. Its members stand without quotes, so those that are declared have to stand before
it. -/
def declareUnion (t : ScalarTable) (name : String) (members : List (TypeRef Gap)) :
    Written Declaration := do
  let types ← members.mapM' t.annotate
  Written.use (.ofFeatures [.union])
  Written.call (.node name)
  let dependsOn ← types.foldlM (addMember name) []
  let texts ← Written.ofExcept (types.mapM' fun r => r.stripOptional.expr.write false)
  return ⟨name, .union, .unionAlias name texts, dependsOn⟩

/-- A model class with given lines. Its bases have to stand before it. -/
def declareModel (name : String) (kind : Kind) (bases lines : List String) : Written Declaration := do
  Written.use (.ofFeatures [.modelBase])
  Written.call (.node name)
  bases.forM fun base => Written.call (.edge name base)
  return .ofModel name kind bases lines

/-- The declaration for a definition. -/
def Options.declare (o : Options) (t : ScalarTable) (d : Definition Gap) : Written Declaration :=
  match d.content with
  | .enum values => declareEnum d.name values
  | .union members => declareUnion t d.name members
  | .interface fields => do
    declareModel d.name .interface [] (← o.fieldLines t d.name fields)
  | .object fields interfaces => do
    Written.use (.ofReferenced interfaces)
    declareModel d.name .object interfaces (← o.fieldLines t d.name fields)
  | .input fields => do
    declareModel d.name .input [] (← o.fieldLines t d.name fields)
  | .other _ => .fail .unsupportedDefinition

end SchemaModels
