import SchemaModels.Setting.Basic
import SchemaModels.Text.Alphanumeric
import SchemaModels.Text.Blank
import SchemaModels.Text.Identifier
import SchemaModels.Text.LowerCase

/-! # Parameters of a command

What the declaration of a parameter says: the name of its value, and the flags that it is given
under. -/

namespace SchemaModels.Command

/-- How a parameter is given: by its place, or under a flag. -/
inductive Role
  | argument
  | option (flags : List String) (default : Setting) (isSwitch : Bool)

structure Parameter where
  name : String
  isPath : Bool := false
  role : Role

/-- Why a parameter cannot be declared. -/
inductive ParameterFault
  | namedTwice
  | nameless
  | flagless
  | sameFlags
  | offFlagForPath
  deriving DecidableEq, Repr

/-- The name of a value after its declaration: in lower case, with underscores for dashes. -/
def valueName (s : String) : String := Text.lower (s.map fun c => if c == '-' then '_' else c)

/-- The number of dashes, or other signs, in front of a flag: none before a letter or digit, two if the
first one is doubled, else one. -/
def signs : List Char → Nat
  | [] => 0
  | c :: cs => if Text.isAlphanumeric c then 0 else if cs.head? == some c then 2 else 1

/-- What the declarations of an option give, one after the other. -/
structure Declared where
  name : Option String := none
  flags : List String := []
  offFlags : List String := []
  deriving DecidableEq, Repr

namespace Declared

def addFlag (d : Declared) (flag : String) : Declared :=
  if flag.isEmpty then d else { d with flags := d.flags ++ [flag] }

def addOffFlag (d : Declared) (flag : String) : Declared :=
  if flag.isEmpty then d else { d with offFlags := d.offFlags ++ [flag] }

/-- Takes one declaration: a name, a flag, or a flag for each of on and off with a slash between them.
A semicolon stands for the slash if the first flag starts with one. -/
def add (d : Declared) (declaration : String) : Except ParameterFault Declared :=
  if Text.isIdentifier declaration then
    if d.name.isSome then .error .namedTwice else .ok { d with name := some declaration }
  else
    let cs := declaration.toList
    let separator := if cs.head? == some '/' then ';' else '/'
    match cs.span (· != separator) with
    | (_, []) => .ok { d with flags := d.flags ++ [declaration] }
    | (on, _ :: off) =>
      let on := String.ofList (Text.trimRight on)
      let off := String.ofList (Text.trimLeft off)
      if on == off then .error .sameFlags else .ok ((d.addFlag on).addOffFlag off)

/-- The name that a flag gives to its value if no name is declared: that of the first flag with the
most signs. -/
def nameOfFlags (flags : List String) : Option String :=
  let bySigns := flags.mergeSort fun a b => signs b.toList ≤ signs a.toList
  bySigns.head?.bind fun flag =>
    let name := valueName (String.ofList (flag.toList.drop (signs flag.toList)))
    if Text.isIdentifier name then some name else none

end Declared

namespace Parameter

/-- An argument, which has its place for a flag. -/
def argument (declaration : String) (isPath : Bool) : Parameter :=
  ⟨valueName declaration, isPath, .argument⟩

/-- An option with the given declarations. One with an off flag is a switch, also if it is not said to
be one, and then it cannot take a path. -/
def option (declarations : List String) (default : Setting) (isSwitch isPath : Bool) :
    Except ParameterFault Parameter := do
  let d ← declarations.foldlM Declared.add {}
  let some name := d.name <|> Declared.nameOfFlags d.flags | .error .nameless
  if d.flags.isEmpty && d.offFlags.isEmpty then .error .flagless
  let hasOffFlag := !d.offFlags.isEmpty
  if hasOffFlag && isPath && !isSwitch then .error .offFlagForPath
  return ⟨name, isPath, .option d.flags default (isSwitch || hasOffFlag)⟩

end Parameter

end SchemaModels.Command
