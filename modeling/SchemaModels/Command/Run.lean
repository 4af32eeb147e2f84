import SchemaModels.Command.Arguments
import SchemaModels.Command.Line
import SchemaModels.Command.Workspace
import SchemaModels.Generator
import SchemaModels.Setting.Json
import SchemaModels.Text.ControlSequence

/-! # The command

Reads a schema and perhaps settings, and writes the generated module. The output file is written last,
so a failure to generate leaves it as it was. A text that no file can hold leaves it empty. -/

namespace SchemaModels.Command

/-- What stops the command without a message of its own. -/
inductive Crash
  | missingPath
  | pathWithNull
  | file (fault : FileFault)
  | json (fault : Setting.JsonFault)
  | failure (cause : Failure)

/-- How a run of the command ends. -/
inductive Ending
  | done
  | usage
  | reported (message : String)
  | crashed (cause : Crash)

/-- The ending of a run, its log, and the files after it. -/
structure Outcome where
  ending : Ending
  log : List LogEntry := []
  workspace : Workspace

namespace Outcome

def exitCode (o : Outcome) : Nat :=
  match o.ending with
  | .done => 0
  | .usage => 2
  | .reported _ | .crashed _ => 1

/-- What the run writes to standard error. The wording of usage errors is left open, and a message is
shown without control sequences. -/
def messages? (o : Outcome) : Option String :=
  let log := String.join (o.log.map fun e => e.fullLine ++ "\n")
  match o.ending with
  | .usage => none
  | .done | .crashed _ => some log
  | .reported message => some (log ++ Text.withoutControls ("Error: " ++ message) ++ "\n")

end Outcome

/-- What the command is asked to do, with all paths resolved. -/
structure Request where
  config : Option Location := none
  strict : Bool := false
  comment : Bool := false
  verbose : Bool := false
  schema : Option Location := none
  output : Option Location := none

/-- The parameters of the command. -/
def parameters : List Parameter :=
  let switch := fun flags => Role.option flags (.bool false) true
  [⟨"config", true, .option ["--config", "-c"] .null false⟩,
    ⟨"strict", false, switch ["--strict"]⟩,
    ⟨"add_generation_comment", false, switch ["--add-generation-comment"]⟩,
    ⟨"verbose", false, switch ["--verbose", "-v"]⟩,
    ⟨"path", true, .argument⟩,
    ⟨"output", true, .argument⟩]

namespace Request

/-- The location of a path. No path holds a null character. -/
def locate (w : Workspace) (path : String) : Except Ending Location :=
  if path.toList.contains '\x00' then .error (.crashed .pathWithNull)
  else .ok (resolve w.directory path)

/-- The location of a path at which there has to be something. -/
def locateExisting (w : Workspace) (path : String) : Except Ending Location := do
  let l ← locate w path
  if w.exists? l then return l else .error .usage

/-- The request of a list of arguments. Help is given before any path is looked at. Then the settings
and the schema have to exist, and there are at most two paths. -/
def ofArguments (w : Workspace) (args : List String) : Except Ending Request := do
  let some a := Arguments.ofList? args | .error .usage
  if a.help then .error .done
  let config ← a.config.mapM (locateExisting w)
  let schema ← a.paths[0]?.mapM (locateExisting w)
  let output ← a.paths[1]?.mapM (locate w)
  if 2 < a.paths.length then .error .usage
  return {
    config, strict := a.strict, comment := a.comment, verbose := a.verbose, schema, output }

/-- The values of the command's parameters. -/
def values (r : Request) : Table String Setting :=
  let path := fun (l : Option Location) =>
    match l with
    | some l => Setting.ofString (fullPath l)
    | none => .null
  .ofList [("config", path r.config), ("strict", .bool r.strict),
    ("add_generation_comment", .bool r.comment), ("verbose", .bool r.verbose),
    ("path", path r.schema), ("output", path r.output)]

/-- The comment of the generated module. -/
def generationComment (r : Request) : String := "Generated by " ++ line parameters r.values

/-- The text of the schema. -/
def readSchema (r : Request) (w : Workspace) : Except Crash String :=
  match r.schema with
  | none => .error .missingPath
  | some l => (w.readText l).mapError .file

/-- How deep the lists and objects of a settings file may nest. -/
def settingsRoom : Nat := 986

/-- The settings in the settings file, or the defaults. -/
def readSettings (r : Request) (w : Workspace) : Except Crash Settings :=
  match r.config with
  | none => .ok {}
  | some l => do
    let text ← (w.readText l).mapError .file
    let value ← (Setting.parse settingsRoom text).mapError .json
    (Settings.ofSetting value).mapError (.failure ∘ .setting)

/-- The options of the run for what the settings mean. A switch can turn an option on, never off. -/
def options (r : Request) (o : Options) : Options :=
  { o with strict := r.strict || o.strict, comment := r.comment || o.comment }

/-- The part of a log that is shown. -/
def shownLog (r : Request) (log : List LogEntry) : List LogEntry :=
  if r.verbose then log else log.filter (·.level == .warning)

/-- Writes the generated text. -/
def writeOutput (r : Request) (w : Workspace) (text : String) : Except Crash Workspace :=
  match r.output with
  | none => .error .missingPath
  | some l => (w.writeText l text).mapError .file

/-- How a failure to generate ends the run. -/
def endingOf (r : Request) (w : Workspace) : Failure → Ending
  | .malformed cause =>
    let path := (r.schema.map (shownPath w.directory)).getD ""
    .reported ("Invalid GraphQL schema " ++ path ++ ": " ++ cause.message)
  | f@(.cycle _) | f@(.unresolved _) | f@(.invalidIdentifier ..) => .reported (f.message?.getD "")
  | f => .crashed (.failure f)

/-- The module for a schema and what the settings mean. -/
def generateWith (r : Request) (schema : String) (o : Options) : Run GeneratedModule :=
  generate (r.options o) schema r.generationComment

/-- Whether a file can hold a module: it must not matter which character takes the place of the
surrogates in the settings. -/
def isWritable (r : Request) (schema : String) (settings : Settings) (m : GeneratedModule) : Bool :=
  let other := settings.optionsWith '\ufffc'
  settings.options.sameTexts other ||
    match (r.generateWith schema other).result with
    | .ok n => n.source == m.source
    | .error _ => false

/-- Does what is asked. -/
def run (r : Request) (w : Workspace) : Outcome :=
  match r.readSchema w with
  | .error crash => ⟨.crashed crash, [], w⟩
  | .ok schema =>
    match r.readSettings w with
    | .error crash => ⟨.crashed crash, [], w⟩
    | .ok settings =>
      let generated := r.generateWith schema settings.options
      let log := r.shownLog generated.log
      match generated.result with
      | .error f => ⟨r.endingOf w f, log, w⟩
      | .ok m =>
        let writable := r.isWritable schema settings m
        match r.writeOutput w (if writable then m.source else "") with
        | .error crash => ⟨.crashed crash, log, w⟩
        | .ok w => ⟨if writable then .done else .crashed (.file .unencodable), log, w⟩

end Request

/-- Runs the command with a list of arguments. -/
def run (w : Workspace) (args : List String) : Outcome :=
  match Request.ofArguments w args with
  | .error ending => ⟨ending, [], w⟩
  | .ok r => r.run w

end SchemaModels.Command
