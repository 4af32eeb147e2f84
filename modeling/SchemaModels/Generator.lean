import SchemaModels.Document.Parser
import SchemaModels.Schema
import SchemaModels.Session

/-! # Generated modules

From the text of a schema to the text of a module. -/

namespace SchemaModels

/-- A module: its import lines, its blocks, and the whole text. -/
structure GeneratedModule where
  header : String
  body : String
  source : String
  deriving DecidableEq, Repr

/-- What stands in front of the blocks: a comment, if there is one, and the import lines. -/
def modulePreamble (header comment : String) : String :=
  let note := if comment.isEmpty then "" else "# " ++ comment ++ "\n\n"
  Text.trimNewlines (note ++ String.join ((Text.splitLines header).map (· ++ "\n")))

/-- The text of a module. Two blank lines stand between the import lines and the blocks. -/
def renderModule (header body comment : String) : String :=
  let parts := [modulePreamble header comment, body].filter fun s => !s.isEmpty
  "\n\n\n".intercalate parts ++ "\n"

/-- What a run came to, with its log. -/
structure Run (α : Type) where
  log : List LogEntry
  result : Except Failure α

namespace Generator

/-- Declares definitions in order, up to the first failure. -/
def declareAll (s : Session) : List (Definition Empty) → Run Session
  | [] => ⟨[], .ok s⟩
  | d :: ds =>
    let entry := LogEntry.declaring d.content.kind d.name
    match s.declare d.widen with
    | (s, .ok declaration) =>
      let rest := declareAll (s.addDeclaration declaration) ds
      ⟨entry :: rest.log, rest.result⟩
    | (_, .error e) => ⟨[entry], .error e⟩

/-- The module of a session in which all definitions are declared. -/
def assemble (s : Session) (comment : String) : Run GeneratedModule :=
  match s.checkReferences with
  | .error e => ⟨[], .error e⟩
  | .ok warnings =>
    match s.body with
    | .error e => ⟨warnings, .error e⟩
    | .ok body =>
      let shown := if s.options.comment then comment else ""
      ⟨warnings ++ [.generated s.declarations.entries.length],
        .ok ⟨s.header, body, renderModule s.header body shown⟩⟩

/-- The session in which all definitions of a schema are declared. -/
def declareSchema (o : Options) (schema : Schema) : Run Session :=
  match Session.start o schema.customScalars schema.positions with
  | .error fault => ⟨[], .error (.setting fault)⟩
  | .ok s => declareAll s schema.definitions

/-- The module for a schema. -/
def ofSchema (o : Options) (schema : Schema) (comment : String) : Run GeneratedModule :=
  let declared := declareSchema o schema
  match declared.result with
  | .error e => ⟨declared.log, .error e⟩
  | .ok s =>
    let assembled := assemble s comment
    ⟨declared.log ++ assembled.log, assembled.result⟩

/-- The module for a document. -/
def ofDocument (o : Options) (doc : Document) (comment : String) : Run GeneratedModule :=
  let (schema, log) := Schema.ofDocument doc
  let run := ofSchema o schema comment
  ⟨log ++ run.log, run.result⟩

end Generator

/-- The module for the text of a schema. The comment is shown only if the options ask for it. -/
def generate (o : Options) (text : String) (comment : String) : Run GeneratedModule :=
  match Document.parse text with
  | .error cause => ⟨[], .error (.malformed cause)⟩
  | .ok doc => Generator.ofDocument o doc comment

end SchemaModels
