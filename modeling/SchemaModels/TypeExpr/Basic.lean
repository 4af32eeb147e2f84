/-! # Type expressions

How a type is written in the target language: a scalar, any value, a declared type in quotes, and
lists and optional types of these. -/

namespace SchemaModels

/-- A type expression. A `blank` is an expression of no particular form; no type resolves to it. -/
inductive TypeExpr
  | scalar (primitive : String)
  | dynamic
  | reference (name : String)
  | list (item : TypeExpr)
  | optional (inner : TypeExpr)
  | blank
  deriving DecidableEq, Repr

namespace TypeExpr

/-- The text of an expression, with references in quotes or without. A blank has none. -/
def render (quoted : Bool) : TypeExpr → Option String
  | scalar primitive => some primitive
  | dynamic => some "Any"
  | reference name => some (if quoted then "'" ++ name ++ "'" else name)
  | list item => (item.render quoted).map fun s => "List[" ++ s ++ "]"
  | optional inner => (inner.render quoted).map fun s => "Optional[" ++ s ++ "]"
  | blank => none

/-- Whether the expression admits null at its outermost level. -/
def isNullable : TypeExpr → Bool
  | optional _ | dynamic => true
  | _ => false

/-- The expression inside all lists and optional types. -/
def leaf : TypeExpr → TypeExpr
  | list item => item.leaf
  | optional inner => inner.leaf
  | e => e

/-- Whether the innermost type is a declared one. -/
def isReference (e : TypeExpr) : Bool :=
  match e.leaf with
  | reference _ => true
  | _ => false

/-- Removes the outermost optional layer, if there is one. -/
def stripOptional : TypeExpr → TypeExpr
  | optional inner => inner
  | e => e

end TypeExpr

/-- A type expression with the name of its innermost type. -/
structure ResolvedType where
  id : String
  expr : TypeExpr
  deriving DecidableEq, Repr

def ResolvedType.stripOptional (t : ResolvedType) : ResolvedType := { t with expr := t.expr.stripOptional }

end SchemaModels
