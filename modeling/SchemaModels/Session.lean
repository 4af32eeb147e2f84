import SchemaModels.Declaration.OfDefinition
import SchemaModels.Graph.Order
import SchemaModels.Log

/-! # Sessions

What has been collected while the definitions of one document are declared: what their declarations
use, the order that these ask for, and the declarations themselves. What a step collected stays, also
if the step fails. -/

namespace SchemaModels

structure Session where
  options : Options
  scalars : ScalarTable
  usage : Usage := {}
  graph : DependencyGraph
  declarations : Table String Declaration := ∅

namespace Session

/-- A session for a document that declares these scalars, with the positions of its definitions. -/
def start (o : Options) (customScalars : List String) (positions : Table String Int) :
    Except SettingFault Session := do
  let scalars := ScalarTable.ofCustom customScalars (← o.overrides)
  return { options := o, scalars, graph := { excluded := scalars.taken, positions } }

/-- Keeps what was used and added on the way to a result. -/
def record {α : Type} (s : Session) (w : Written α) : Session × Except Failure α :=
  ({ s with usage := s.usage.merge w.usage, graph := s.graph.applyAll w.calls }, w.result)

section

variable {α : Type} (s : Session) (w : Written α)

@[simp] theorem options_record : (s.record w).1.options = s.options := rfl

@[simp] theorem scalars_record : (s.record w).1.scalars = s.scalars := rfl

@[simp] theorem graph_record : (s.record w).1.graph = s.graph.applyAll w.calls := rfl

@[simp] theorem declarations_record : (s.record w).1.declarations = s.declarations := rfl

@[simp] theorem usage_record : (s.record w).1.usage = s.usage.merge w.usage := rfl

@[simp] theorem result_record : (s.record w).2 = w.result := rfl

end

/-- The expression for a type reference. -/
def resolveType (s : Session) (ref : TypeRef Gap) : Session × Except Failure ResolvedType :=
  s.record (s.scalars.annotate ref)

/-- Writes the line of a field whose type is resolved. -/
def attributeLine (s : Session) (owner name : String) (type : ResolvedType) :
    Session × Except Failure String :=
  s.record (Attribute.line <$> s.options.attribute owner name type)

/-- Writes the line of a field. -/
def fieldLine (s : Session) (owner : String) (f : Field Gap) :
    Session × Except Failure String :=
  s.record (Attribute.line <$> s.options.attributeOf s.scalars owner f)

/-- The declaration of a definition. -/
def declare (s : Session) (d : Definition Gap) : Session × Except Failure Declaration :=
  s.record (s.options.declare s.scalars d)

/-- The declaration of a model class with given lines. -/
def declareModel (s : Session) (name : String) (kind : Kind) (bases lines : List String) :
    Session × Except Failure Declaration :=
  s.record (SchemaModels.declareModel name kind bases lines)

/-- Adds a declaration. One of the same name takes the place of the earlier one. -/
def addDeclaration (s : Session) (d : Declaration) : Session :=
  { s with declarations := s.declarations.insert d.name d }

/-- Registers a name to import. -/
def registerName (s : Session) (n : ImportedName) : Session :=
  { s with usage := { s.usage with imports := s.usage.imports.registerName n } }

/-- The type names in use that are neither declared nor scalars, in order. -/
def unresolved (s : Session) : List String :=
  (s.usage.referenced.filter fun n =>
    !s.declarations.contains n && !s.scalars.contains n).mergeSort

/-- Refuses unresolved names in strict mode, else reports each of them. -/
def checkReferences (s : Session) : Except Failure (List LogEntry) :=
  match s.unresolved with
  | [] => .ok []
  | names => if s.options.strict then .error (.ofUnresolved names) else .ok (names.map .undeclared)

/-- The nodes of the graph in dependency order. -/
def order (s : Session) : Except Failure (List String) := s.graph.order.mapError .cycle

/-- The blocks in dependency order. Nodes that nothing declares have none. -/
def blocks (s : Session) : Except Failure (List Block) := do
  return (← s.order).filterMap fun name => (s.declarations.get? name).map (·.block)

/-- The blocks as one text, with a blank line between them. -/
def body (s : Session) : Except Failure String := do
  return "\n\n".intercalate ((← s.blocks).map Block.text)

/-- The import lines. -/
def header (s : Session) : String := s.usage.imports.header

end Session

end SchemaModels
