import SchemaModels.Command.Parameter
import SchemaModels.Command.Path
import SchemaModels.Setting.Text

/-! # Command lines

The text of the command with which a module was generated: arguments first, then options, leaving out
what was not given or is the default. -/

namespace SchemaModels.Command

/-- The name of the command. -/
def commandName : String := "graphql_to_pydantic"

namespace Parameter

/-- A value as it is shown: of a path, only the last name. -/
def shown (p : Parameter) (v : Setting) : String :=
  let text := v.display '\ufffd'
  if p.isPath then fileName text else text

/-- The flag of a parameter that is shown. -/
def flag (p : Parameter) : List String → String
  | [] => "--" ++ p.name
  | f :: _ => f

/-- What a value adds to the arguments. -/
def argumentWords (p : Parameter) (v : Setting) : List String :=
  match p.role with
  | .argument => if v.truthy then [p.shown v] else []
  | .option .. => []

/-- What a value adds to the options. -/
def optionWords (p : Parameter) (v : Setting) : List String :=
  match p.role with
  | .argument => []
  | .option flags default isSwitch =>
    if !v.truthy || v.plainEq default then []
    else if isSwitch then [p.flag flags]
    else [p.flag flags, p.shown v]

end Parameter

/-- The text of a command line, for the values that its parameters have. -/
def line (parameters : List Parameter) (values : Table String Setting) : String :=
  let value := fun (p : Parameter) => (values.get? p.name).getD .null
  " ".intercalate (commandName ::
    (parameters.flatMap fun p => p.argumentWords (value p)) ++
    (parameters.flatMap fun p => p.optionWords (value p)))

end SchemaModels.Command
