/-! # Tokens of a schema document

The lexical units of the schema language, how an error message names them, and the stream of tokens
that a text gives. -/

namespace SchemaModels.Document

inductive Punctuator
  | bang | dollar | amp | parenL | parenR | spread | colon | equals | at
  | bracketL | bracketR | braceL | pipe | braceR
  deriving DecidableEq, Repr

/-- The spelling of a punctuator. -/
def Punctuator.text : Punctuator → String
  | .bang => "!" | .dollar => "$" | .amp => "&" | .parenL => "(" | .parenR => ")"
  | .spread => "..." | .colon => ":" | .equals => "=" | .at => "@" | .bracketL => "["
  | .bracketR => "]" | .braceL => "\x7b" | .pipe => "|" | .braceR => "\x7d"

/-- A token. Numbers keep their spelling; strings carry the value that they denote. -/
inductive Token
  | punctuator (p : Punctuator)
  | name (value : String)
  | int (text : String)
  | float (text : String)
  | string (value : String)
  | blockString (value : String)
  deriving DecidableEq, Repr

namespace Token

/-- Puts a text between single quotes. -/
def quoted (s : String) : String := "'" ++ s ++ "'"

/-- How a message names a token. -/
def description : Token → String
  | punctuator p => quoted p.text
  | name value => "Name " ++ quoted value
  | int text => "Int " ++ quoted text
  | float text => "Float " ++ quoted text
  | string value => "String " ++ quoted value
  | blockString value => "BlockString " ++ quoted value

/-- The text that a token carries; a punctuator carries none. -/
def value? : Token → Option String
  | punctuator _ => none
  | name value | string value | blockString value => some value
  | int text | float text => some text

/-- Whether a token can be a description: a string of either form. -/
def isString : Token → Bool
  | string _ | blockString _ => true
  | _ => false

/-- How a message names the place of a token, where `none` is the end of the document. -/
def place : Option Token → String
  | none => "<EOF>"
  | some t => t.description

end Token

end SchemaModels.Document
