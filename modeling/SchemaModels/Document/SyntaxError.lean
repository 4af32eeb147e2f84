import SchemaModels.Document.Token
import SchemaModels.Text.Hex

/-! # Why a text is no schema document

The causes for which reading a document stops, and their wording. -/

namespace SchemaModels.Document

/-- A token that the grammar asks for. -/
inductive Expected
  | name
  | punctuator (p : Punctuator)
  | keyword (word : String)
  deriving DecidableEq, Repr

def Expected.description : Expected → String
  | name => "Name"
  | punctuator p => Token.quoted p.text
  | keyword word => Token.quoted word

/-- The cause of a syntax error. The first group arises inside a token, the second between tokens.
A character is given as `none` at the end of the text, and a token as `none` at the end of the
document. -/
inductive SyntaxError
  | twoDots
  | pointWithoutDigit (digits : String)
  | singleQuote
  | character (c : Option Char)
  | digitAfterZero (c : Option Char)
  | expectedDigit (c : Option Char)
  | unterminatedString
  | badEscape (text : String)
  | badUnicodeEscape (text : String)
  | unexpected (token : Option Token)
  | expected (what : Expected) (found : Option Token)
  | describedShorthand
  | describedOther
  | reservedEnumValue (token : Token)
  | variableInConstant (name : String)
  | tooDeep
  deriving DecidableEq, Repr

namespace SyntaxError

/-- How a message names a character: itself in quotes if it is printable ASCII, else its code
point. -/
def characterName : Option Char → String
  | none => "<EOF>"
  | some c =>
    if 0x20 ≤ c.toNat && c.toNat ≤ 0x7e then Token.quoted (String.singleton c)
    else "U+" ++ String.ofList ((Text.hexText 4 c.toNat).map Char.toUpper)

/-- What went wrong, without the common opening of the message. -/
def detail : SyntaxError → String
  | twoDots => "Unexpected '..', did you mean '...'?"
  | pointWithoutDigit digits =>
    "Invalid number, expected digit before '.', did you mean '0." ++ digits ++ "'?"
  | singleQuote =>
    "Unexpected single quote character ('), did you mean to use a double quote (\")?"
  | character c => "Unexpected character: " ++ characterName c ++ "."
  | digitAfterZero c => "Invalid number, unexpected digit after 0: " ++ characterName c ++ "."
  | expectedDigit c => "Invalid number, expected digit but got: " ++ characterName c ++ "."
  | unterminatedString => "Unterminated string."
  | badEscape text => "Invalid character escape sequence: " ++ Token.quoted text ++ "."
  | badUnicodeEscape text => "Invalid Unicode escape sequence: " ++ Token.quoted text ++ "."
  | unexpected token => "Unexpected " ++ Token.place token ++ "."
  | expected what found => "Expected " ++ what.description ++ ", found " ++ Token.place found ++ "."
  | describedShorthand =>
    "Unexpected description, descriptions are not supported on shorthand queries."
  | describedOther => "Unexpected description, only GraphQL definitions support descriptions."
  | reservedEnumValue token =>
    token.description ++ " is reserved and cannot be used for an enum value."
  | variableInConstant name => "Unexpected variable '$" ++ name ++ "' in constant value."
  | tooDeep => "Document is nested too deeply. Parsing aborted."

def message (e : SyntaxError) : String := "Syntax Error: " ++ e.detail

end SyntaxError

end SchemaModels.Document
