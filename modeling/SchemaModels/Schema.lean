import SchemaModels.Log
import SchemaModels.Table

/-! # Schemas

The definitions and custom scalars of a document, with every extension folded into the definition
that it extends. -/

namespace SchemaModels

structure Schema where
  definitions : List (Definition Empty)
  customScalars : List String
  deriving DecidableEq, Repr

namespace Schema

/-- The definitions among nodes, the first of which stands at a given place of the document. -/
def definitionsFrom : (position : Nat) → List Document.Node → List (Definition Empty)
  | _, [] => []
  | p, .definition name content :: nodes => ⟨name, p, content⟩ :: definitionsFrom (p + 1) nodes
  | p, _ :: nodes => definitionsFrom (p + 1) nodes

def scalarName? : Document.Node → Option String
  | .scalar name => some name
  | _ => none

def skipped? : Document.Node → Option LogEntry
  | .skipped kind => some (.skippedNode kind)
  | _ => none

/-- Adds a content to the last definition of a name. There is no outcome if nothing has the name, or
something of another kind has it. -/
def extendLast (name : String) (part : Content Empty) :
    List (Definition Empty) → Option (List (Definition Empty))
  | [] => none
  | d :: ds =>
    if ds.any (·.name == name) then (extendLast name part ds).map (d :: ·)
    else if d.name == name then
      (d.content.append? part).map fun c => { d with content := c } :: ds
    else none

/-- Folds the extensions among nodes into definitions, in order, and reports those that extend
nothing. -/
def foldExtensions :
    List (Definition Empty) → List Document.Node → List (Definition Empty) × List LogEntry
  | ds, [] => (ds, [])
  | ds, .extension name part :: nodes =>
    match extendLast name part ds with
    | some ds => foldExtensions ds nodes
    | none =>
      let (ds, log) := foldExtensions ds nodes
      (ds, .skippedExtension part.kind name :: log)
  | ds, .scalarExtension name :: nodes =>
    let (ds, log) := foldExtensions ds nodes
    (ds, .skippedScalarExtension name :: log)
  | ds, _ :: nodes => foldExtensions ds nodes

/-- The schema of a document, with a report on what was skipped. -/
def ofDocument (doc : Document) : Schema × List LogEntry :=
  let (definitions, log) := foldExtensions (definitionsFrom 0 doc.nodes) doc.nodes
  (⟨definitions, doc.nodes.filterMap scalarName?⟩, doc.nodes.filterMap skipped? ++ log)

/-- The positions of the definitions. Of several definitions of a name, the last one counts. -/
def positions (s : Schema) : Table String Int :=
  .ofList (s.definitions.map fun d => (d.name, (d.position : Int)))

end Schema

end SchemaModels
