import SchemaModels.Document.SyntaxError
import SchemaModels.Settings
import SchemaModels.TypeRef

/-! # Failures

The causes for which no module is generated, and their wording. -/

namespace SchemaModels

inductive Failure
  | malformed (cause : Document.SyntaxError)
  | cycle (path : List String)
  | unresolved (names : List String)
  | invalidIdentifier (owner name : String)
  | bareName (n : BareName)
  | unsupportedType (gap : Gap)
  | unsupportedExpression
  | unsupportedDefinition
  | setting (fault : SettingFault)
  deriving DecidableEq, Repr

namespace Failure

/-- The failure for names that nothing declares, which it holds in order. -/
def ofUnresolved (names : List String) : Failure := .unresolved names.mergeSort

/-- The message of a failure. Faults of the settings have none. -/
def message? : Failure → Option String
  | malformed cause => some cause.message
  | cycle path => some ("Dependency cycle between declarations: " ++ " -> ".intercalate path)
  | unresolved names => some ("Unresolved type references: " ++ ", ".intercalate names)
  | invalidIdentifier owner name =>
    some (owner ++ "." ++ name ++ " is a Python keyword and cannot be a model attribute")
  | bareName _ => some "Unsupported type node: NameNode"
  | unsupportedType .absent => some "Unsupported type reference: NoneType"
  | unsupportedType .general => some "Unsupported type reference: TypeRefNode"
  | unsupportedExpression => some "Unsupported type expression: TypeExpr"
  | unsupportedDefinition => some "No translator for DefinitionNode"
  | setting _ => none

end Failure

end SchemaModels
