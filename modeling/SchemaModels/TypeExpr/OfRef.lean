import SchemaModels.ScalarTable
import SchemaModels.TypeExpr.Basic
import SchemaModels.Usage

/-! # From type references to type expressions

A scalar table decides how a type reference is written, and what the text uses. -/

namespace SchemaModels

namespace ScalarTable

variable (t : ScalarTable)

/-- The expression for a type name. A scalar for any value needs no optional layer. -/
def annotateName (name : String) : Written ResolvedType :=
  match t.target? name with
  | some target =>
    if target == anyType then do
      Written.use (.ofFeatures [.dynamic])
      return ⟨anyType, .dynamic⟩
    else do
      if let some (module, short) := dotted? target then
        Written.use (.ofName module short)
      Written.use (.ofFeatures [.optional])
      return ⟨shortName target, .optional (.scalar (shortName target))⟩
  | none => do
    Written.use (.ofReferenced [name])
    Written.use (.ofFeatures [.optional])
    return ⟨name, .optional (.reference name)⟩

/-- The expression for a type reference, from the inside. A type may be null until a non-null wrapper
takes its optional layer away; a gap has no expression. -/
def annotate : TypeRef Gap → Written ResolvedType
  | .named name => t.annotateName name
  | .list item => do
    let r ← annotate item
    Written.use (.ofFeatures [.list, .optional])
    return { r with expr := .optional (.list r.expr) }
  | .nonNull inner => do
    let r ← annotate inner
    return r.stripOptional
  | .other gap => .fail (.unsupportedType gap)

end ScalarTable

/-- The text of a type expression. -/
def TypeExpr.write (quoted : Bool) (e : TypeExpr) : Except Failure String :=
  match e.render quoted with
  | some s => .ok s
  | none => .error .unsupportedExpression

end SchemaModels
