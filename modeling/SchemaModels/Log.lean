import SchemaModels.Document.Basic

/-! # Log

What a run reports on its way. -/

namespace SchemaModels

namespace Document.SkippedKind

/-- The word for a kind of skipped node. -/
def label : SkippedKind → String
  | operation => "operation_definition"
  | fragment => "fragment_definition"
  | schema => "schema_definition"
  | directive => "directive_definition"
  | schemaExtension => "schema_extension"
  | directiveExtension => "directive_extension"

end Document.SkippedKind

namespace Kind

/-- The word for extensions of a kind. -/
def extensionLabel : Kind → String
  | enum => "enum_type_extension"
  | union => "union_type_extension"
  | interface => "interface_type_extension"
  | object => "object_type_extension"
  | input => "input_object_type_extension"

/-- The word for definitions of a kind. -/
def definitionLabel : Kind → String
  | enum => "EnumDefinition"
  | union => "UnionDefinition"
  | interface => "InterfaceDefinition"
  | object => "ObjectDefinition"
  | input => "InputObjectDefinition"

end Kind

inductive LogLevel
  | debug | info | warning
  deriving DecidableEq, Repr

def LogLevel.label : LogLevel → String
  | debug => "DEBUG" | info => "INFO" | warning => "WARNING"

/-- One report. -/
inductive LogEntry
  | skippedNode (kind : Document.SkippedKind)
  | skippedScalarExtension (name : String)
  | skippedExtension (kind : Kind) (name : String)
  | declaring (kind : Kind) (name : String)
  | undeclared (name : String)
  | generated (count : Nat)
  deriving DecidableEq, Repr

namespace LogEntry

def level : LogEntry → LogLevel
  | undeclared _ => .warning
  | generated _ => .info
  | _ => .debug

/-- The part of the program that reports an entry. -/
def reporter : LogEntry → String
  | skippedNode _ | skippedScalarExtension _ | skippedExtension .. =>
    "graphql_to_pydantic.pipeline.schema_ast.parser"
  | _ => "graphql_to_pydantic.pipeline.generator"

def message : LogEntry → String
  | skippedNode kind => "Skipping unsupported definition kind " ++ kind.label
  | skippedScalarExtension name => "Skipping extension scalar_type_extension of " ++ name
  | skippedExtension kind name => "Skipping extension " ++ kind.extensionLabel ++ " of " ++ name
  | declaring kind name => "Translating " ++ kind.definitionLabel ++ " " ++ name
  | undeclared name =>
    "Type " ++ name ++ " is referenced but never declared; emitting a forward reference"
  | generated count => "Generated " ++ String.ofList (Nat.toDigits 10 count) ++ " declarations"

/-- An entry with its level. -/
def line (e : LogEntry) : String := e.level.label ++ ":" ++ e.message

/-- An entry with its level and reporter. -/
def fullLine (e : LogEntry) : String := e.level.label ++ ":" ++ e.reporter ++ ":" ++ e.message

end LogEntry

end SchemaModels
