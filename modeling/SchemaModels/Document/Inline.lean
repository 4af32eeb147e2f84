import SchemaModels.Document.Basic

/-! # Documents without extensions

Every definition with the content of its extensions written in place. -/

namespace SchemaModels.Document

/-- The contents of the extensions of a name, of one kind, in order. -/
def extensionsOf (name : String) (kind : Kind) (nodes : List Node) : List (Content Empty) :=
  nodes.filterMap fun
    | .extension n part => if n == name && part.kind == kind then some part else none
    | _ => none

/-- A content with the values, members, fields and interfaces of others after its own. -/
def contentWith (content : Content Empty) (parts : List (Content Empty)) : Content Empty :=
  match content with
  | .enum values => .enum (values ++ parts.flatMap Content.values)
  | .union members => .union (members ++ parts.flatMap Content.members)
  | .interface fields => .interface (fields ++ parts.flatMap Content.fields)
  | .object fields interfaces =>
    .object (fields ++ parts.flatMap Content.fields) (interfaces ++ parts.flatMap Content.interfaces)
  | .input fields => .input (fields ++ parts.flatMap Content.fields)

/-- A node with its extensions written in place, among the nodes of its document. Extensions of types
leave no node. -/
def inlineNode (nodes : List Node) : Node → Option Node
  | .definition name content =>
    some (.definition name (contentWith content (extensionsOf name content.kind nodes)))
  | .extension .. | .scalarExtension _ => none
  | node => some node

/-- The document with all extensions of types written in place. -/
def inline (doc : Document) : Document := ⟨doc.nodes.filterMap (inlineNode doc.nodes)⟩

end SchemaModels.Document
