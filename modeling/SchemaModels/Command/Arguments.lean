/-! # Arguments of the command

Which options and paths a list of arguments gives. Options and paths may be mixed; after two dashes
only paths follow. -/

namespace SchemaModels.Command

/-- The options of the command. -/
inductive Switch
  | config | strict | comment | verbose | help
  deriving DecidableEq, Repr

namespace Switch

def ofLong? : String → Option Switch
  | "--config" => some config
  | "--strict" => some strict
  | "--add-generation-comment" => some comment
  | "--verbose" => some verbose
  | "--help" => some help
  | _ => none

def ofShort? : Char → Option Switch
  | 'c' => some config
  | 'v' => some verbose
  | _ => none

end Switch

/-- What the arguments give. Of several configuration files the last one counts. -/
structure Arguments where
  config : Option String := none
  strict : Bool := false
  comment : Bool := false
  verbose : Bool := false
  help : Bool := false
  paths : List String := []
  deriving DecidableEq, Repr

namespace Arguments

/-- Turns on an option that takes no value. -/
def turnOn (a : Arguments) : Switch → Arguments
  | .config => a
  | .strict => { a with strict := true }
  | .comment => { a with comment := true }
  | .verbose => { a with verbose := true }
  | .help => { a with help := true }

/-- Reads the letters after a single dash. A letter that takes a value takes the rest of the letters;
with none left it waits for the next argument, which the flag tells. -/
def letters (a : Arguments) : List Char → Option (Arguments × Bool)
  | [] => some (a, false)
  | c :: cs =>
    match Switch.ofShort? c with
    | none => none
    | some .config =>
      if cs.isEmpty then some (a, true)
      else some ({ a with config := some (String.ofList cs) }, false)
    | some s => (a.turnOn s).letters cs

/-- The name of a long option and the value after its equals sign. -/
def splitEquals (arg : String) : String × Option String :=
  let (name, rest) := arg.toList.span (· != '=')
  (String.ofList name, if rest.isEmpty then none else some (String.ofList (rest.drop 1)))

/-- Reads one option, with a flag that tells whether its value is the next argument. -/
def option (a : Arguments) (arg : String) : Option (Arguments × Bool) :=
  let (name, value) := splitEquals arg
  match Switch.ofLong? name with
  | some .config =>
    match value with
    | some v => some ({ a with config := some v }, false)
    | none => some (a, true)
  | some s => if value.isSome then none else some (a.turnOn s, false)
  | none => if arg.toList.take 2 == ['-', '-'] then none else a.letters (arg.toList.drop 1)

/-- Reads arguments one by one. There is no outcome for an unknown option, a missing value, or a value
for an option that takes none. -/
def scan (a : Arguments) : List String → Option Arguments
  | [] => some a
  | arg :: args =>
    if arg == "--" then some { a with paths := a.paths ++ args }
    else if arg.toList.head? == some '-' && arg != "-" then
      match a.option arg with
      | none => none
      | some (a, false) => a.scan args
      | some (a, true) =>
        match args with
        | [] => none
        | value :: args => { a with config := some value }.scan args
    else { a with paths := a.paths ++ [arg] }.scan args

/-- The options and paths that a list of arguments gives. -/
def ofList? (args : List String) : Option Arguments := scan {} args

end Arguments

end SchemaModels.Command
