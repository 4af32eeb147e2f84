import SchemaModels.Definition

/-! # Schema documents

A document is a list of top-level nodes. Of a node it keeps what a schema is built from: directives,
descriptions, arguments and default values are read and left out. -/

namespace SchemaModels

namespace Document

/-- The nodes that take no part in a schema. -/
inductive SkippedKind
  | operation | fragment | schema | directive | schemaExtension | directiveExtension
  deriving DecidableEq, Repr

inductive Node
  | scalar (name : String)
  | definition (name : String) (content : Content Empty)
  | scalarExtension (name : String)
  | extension (name : String) (content : Content Empty)
  | skipped (kind : SkippedKind)
  deriving DecidableEq, Repr

end Document

structure Document where
  nodes : List Document.Node
  deriving DecidableEq, Repr

end SchemaModels
