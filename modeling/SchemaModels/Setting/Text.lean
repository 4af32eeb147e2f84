import SchemaModels.Setting.Basic
import SchemaModels.Text.Hex
import SchemaModels.Text.Printable

/-! # Settings as text

How a value is written into the generated text: a text as it is, any other value as an expression of
the target language. Texts inside lists and objects stand in quotes. -/

namespace SchemaModels

namespace Text

/-- The quote around a text: a double one if the text holds single quotes only. -/
def quoteFor (s : RawText) : Char :=
  if s.contains (.char '\'') && !s.contains (.char '"') then '"' else '\''

/-- A character inside a quoted text. -/
def quotedChar (quote c : Char) : List Char :=
  if c == quote || c == '\\' then ['\\', c]
  else if c == '\n' then ['\\', 'n']
  else if c == '\r' then ['\\', 'r']
  else if c == '\t' then ['\\', 't']
  else if isPrintable c then [c]
  else if c.toNat < 0x100 then '\\' :: 'x' :: hexText 2 c.toNat
  else if c.toNat < 0x10000 then '\\' :: 'u' :: hexText 4 c.toNat
  else '\\' :: 'U' :: hexText 8 c.toNat

/-- A code point inside a quoted text. -/
def quotedPoint (quote : Char) : CodePoint → List Char
  | .char c => quotedChar quote c
  | .surrogate offset => '\\' :: 'u' :: hexText 4 (0xd800 + offset)

/-- A text in quotes, with all that cannot be shown escaped. -/
def quoted (s : RawText) : String :=
  let q := quoteFor s
  String.ofList (q :: s.flatMap (quotedPoint q) ++ [q])

/-- An integer in decimal. -/
def ofInt (n : Int) : String :=
  let digits := Nat.toDigits 10 n.natAbs
  String.ofList (if n < 0 then '-' :: digits else digits)

end Text

namespace Setting

mutual

/-- A value as an expression. -/
def literal : Setting → String
  | null => "None"
  | bool b => if b then "True" else "False"
  | int n => Text.ofInt n
  | float x => x.text
  | text s => Text.quoted s
  | list items => "[" ++ ", ".intercalate (literals items) ++ "]"
  | object entries => "\x7b" ++ ", ".intercalate (entryLiterals entries) ++ "\x7d"

def literals : List Setting → List String
  | [] => []
  | v :: vs => literal v :: literals vs

def entryLiterals : List (RawText × Setting) → List String
  | [] => []
  | (k, v) :: es => (Text.quoted k ++ ": " ++ literal v) :: entryLiterals es

end

/-- A value written into a text, with a character in the place of each surrogate of a text. -/
def display (standIn : Char) : Setting → String
  | text s => s.toStringWith standIn
  | v => v.literal

end Setting

end SchemaModels
