import SchemaModels.Document.SyntaxError
import SchemaModels.Text.Hex
import SchemaModels.Text.Lines
import SchemaModels.Text.SnakeCase

/-! # From text to tokens

`TokenStream.ofText` cuts a text into tokens. A part of the text that is no token ends the stream
with its cause, so the grammar meets that cause exactly when it comes to the place. -/

namespace SchemaModels.Document

open Text

/-- The tokens of a text in order, up to its end or to the first fault inside a token. -/
inductive TokenStream
  | done
  | broken (cause : SyntaxError)
  | cons (token : Token) (rest : TokenStream)
  deriving DecidableEq, Repr

/-- The number of tokens in a stream. -/
def TokenStream.length : TokenStream → Nat
  | done | broken _ => 0
  | cons _ rest => rest.length + 1

namespace Lexer

/-! ## Character classes -/

def isNameStart (c : Char) : Bool := c.isAlpha || c == '_'

def isNameChar (c : Char) : Bool := c.isAlphanum || c == '_'

/-- Characters that may stand anywhere between tokens. -/
def isBlank (c : Char) : Bool :=
  c == ' ' || c == '\t' || c == ',' || c == '\ufeff' || c == '\n' || c == '\r'

def isLineEnd (c : Char) : Bool := c == '\n' || c == '\r'

def punctuator? : Char → Option Punctuator
  | '!' => some .bang | '$' => some .dollar | '&' => some .amp | '(' => some .parenL
  | ')' => some .parenR | ':' => some .colon | '=' => some .equals | '@' => some .at
  | '[' => some .bracketL | ']' => some .bracketR | '\x7b' => some .braceL | '|' => some .pipe
  | '\x7d' => some .braceR
  | _ => none

/-! ## Numbers -/

/-- The length of the run of digits that must start the text. -/
def digits (cs : List Char) : Except SyntaxError Nat :=
  if startsWith Char.isDigit cs then .ok (runLength Char.isDigit cs)
  else .error (.expectedDigit cs.head?)

/-- The length of an integer part: a lone zero or a run of digits. -/
def integerLength : List Char → Except SyntaxError Nat
  | '0' :: cs => if startsWith Char.isDigit cs then .error (.digitAfterZero cs.head?) else .ok 1
  | cs => digits cs

/-- The length of a fraction, `0` if there is none. -/
def fractionLength : List Char → Except SyntaxError Nat
  | '.' :: cs => (digits cs).map (· + 1)
  | _ => .ok 0

/-- The length of an exponent, `0` if there is none. -/
def exponentLength : List Char → Except SyntaxError Nat
  | [] => .ok 0
  | c :: cs =>
    if c == 'e' || c == 'E' then
      let sign := if startsWith (fun c => c == '+' || c == '-') cs then 1 else 0
      (digits (cs.drop sign)).map (· + (1 + sign))
    else .ok 0

/-- The number that starts the text, with its length. -/
def number (cs : List Char) : Except SyntaxError (Token × Nat) := do
  let sign := if startsWith (· == '-') cs then 1 else 0
  let whole ← integerLength (cs.drop sign)
  let fraction ← fractionLength (cs.drop (sign + whole))
  let exponent ← exponentLength (cs.drop (sign + whole + fraction))
  let size := sign + whole + fraction + exponent
  let rest := cs.drop size
  if startsWith (fun c => c == '.' || isNameStart c) rest then .error (.expectedDigit rest.head?)
  else
    let text := String.ofList (cs.take size)
    .ok (if fraction = 0 && exponent = 0 then .int text else .float text, size)

/-! ## Strings -/

/-- The value of an escape of one letter. -/
def simpleEscape? : Char → Option Char
  | '"' => some '"' | '\\' => some '\\' | '/' => some '/' | 'b' => some '\x08'
  | 'f' => some '\x0c' | 'n' => some '\n' | 'r' => some '\r' | 't' => some '\t'
  | _ => none

/-- Reads the digits of an escape with braces, from the `size`-th character after its backslash,
with `room` more characters allowed: the code point and the size of the escape, or the size at which
it went wrong. -/
def bracedDigits : (room size point : Nat) → List Char → Except Nat (Nat × Nat)
  | 0, size, _, _ | _, size, _, [] => .error size
  | room + 1, size, point, c :: cs =>
    if c == '\x7d' then
      if size + 1 < 5 || !decide point.isValidChar then .error (size + 1) else .ok (point, size + 1)
    else
      match hexDigit? c with
      | none => .error (size + 1)
      | some d => bracedDigits room (size + 1) (point * 16 + d) cs

/-- The character of a four-digit escape, or of a pair of them, with the number of characters after
the backslash. The text starts after `\u`. -/
def fixedEscape? (cs : List Char) : Option (Char × Nat) := do
  let code ← hex4? cs
  if code.isValidChar then return (Char.ofNat code, 5)
  match cs.drop 4 with
  | '\\' :: 'u' :: low =>
    let low ← hex4? low
    if isHighSurrogate code && isLowSurrogate low then
      return (Char.ofNat (surrogatePair code low), 11)
    else failure
  | _ => failure

/-- The character that an escape denotes and the number of characters after its backslash. The text
starts after the backslash. -/
def escape : List Char → Except SyntaxError (Char × Nat)
  | 'u' :: '\x7b' :: cs =>
    match bracedDigits 9 3 0 cs with
    | .ok (point, size) => .ok (Char.ofNat point, size - 1)
    | .error size =>
      .error (.badUnicodeEscape (String.ofList (('\\' :: 'u' :: '\x7b' :: cs).take size)))
  | 'u' :: cs =>
    match fixedEscape? cs with
    | some r => .ok r
    | none => .error (.badUnicodeEscape (String.ofList (('\\' :: 'u' :: cs).take 6)))
  | c :: _ =>
    match simpleEscape? c with
    | some v => .ok (v, 1)
    | none => .error (.badEscape (String.ofList ['\\', c]))
  | [] => .error (.badEscape "\\")

/-- Puts characters in front of a string's value and counts one more character of the text. -/
def consumed (value : List Char) :
    Except SyntaxError (List Char × Nat) → Except SyntaxError (List Char × Nat) :=
  Except.map fun r => (value ++ r.1, r.2 + 1)

/-- The value of a string and the number of its characters up to the closing quote. The text starts
inside the string, and its first `skip` characters belong to an escape already read. -/
def stringBody : (skip : Nat) → List Char → Except SyntaxError (List Char × Nat)
  | _, [] => .error .unterminatedString
  | skip + 1, _ :: cs => consumed [] (stringBody skip cs)
  | 0, '"' :: _ => .ok ([], 1)
  | 0, '\\' :: cs =>
    match escape cs with
    | .error e => .error e
    | .ok (c, n) => consumed [c] (stringBody n cs)
  | 0, c :: cs => if isLineEnd c then .error .unterminatedString else consumed [c] (stringBody 0 cs)

/-- The raw text of a block string and the number of its characters up to the closing quotes. -/
def blockBody : (skip : Nat) → List Char → Except SyntaxError (List Char × Nat)
  | _, [] => .error .unterminatedString
  | skip + 1, _ :: cs => consumed [] (blockBody skip cs)
  | 0, '"' :: '"' :: '"' :: _ => .ok ([], 3)
  | 0, '\\' :: cs =>
    match cs with
    | '"' :: '"' :: '"' :: _ => consumed ['"', '"', '"'] (blockBody 3 cs)
    | _ => consumed ['\\'] (blockBody 0 cs)
  | 0, c :: cs => consumed [c] (blockBody 0 cs)

/-! ## The value of a block string -/

def isIndent (c : Char) : Bool := c == ' ' || c == '\t'

def isBlankLine (line : List Char) : Bool := line.all isIndent

/-- The least indentation of the lines that are not blank, `none` if all are. -/
def commonIndent : List (List Char) → Option Nat
  | [] => none
  | line :: lines =>
    if isBlankLine line then commonIndent lines
    else some <|
      match commonIndent lines with
      | none => runLength isIndent line
      | some n => min (runLength isIndent line) n

/-- Removes the common indentation from all lines but the first. -/
def dedent : List (List Char) → List (List Char)
  | [] => []
  | first :: lines =>
    match commonIndent lines with
    | none => first :: lines.map fun _ => []
    | some n => first :: lines.map (·.drop n)

/-- The lines between line feeds. -/
def rawLines (cs : List Char) : List (List Char) := cs.splitOn '\n'

/-- The value of a block string: dedented, without blank lines at its start and end. -/
def blockValue (raw : List Char) : List Char :=
  let lines := dedent (rawLines (normalizeNewlines raw))
  ['\n'].intercalate ((lines.dropWhile isBlankLine).reverse.dropWhile isBlankLine).reverse

/-! ## Tokens -/

/-- What stands at a place of the text: `skip` says how many characters after the first belong to
it. -/
inductive Lexeme
  | blank (skip : Nat)
  | token (t : Token) (skip : Nat)
  | fault (cause : SyntaxError)

/-- A token read from its first character on. -/
def Lexeme.ofRead : Except SyntaxError (Token × Nat) → Lexeme
  | .ok (t, size) => .token t (size - 1)
  | .error e => .fault e

/-- What starts with a full stop. -/
def afterDot : List Char → Lexeme
  | '.' :: '.' :: _ => .token (.punctuator .spread) 2
  | '.' :: _ => .fault .twoDots
  | cs =>
    if startsWith Char.isDigit cs then
      .fault (.pointWithoutDigit (String.ofList (cs.takeWhile Char.isDigit)))
    else .fault (.character (some '.'))

/-- What starts with a double quote. -/
def afterQuote : List Char → Lexeme
  | '"' :: '"' :: cs =>
    match blockBody 0 cs with
    | .ok (raw, n) => .token (.blockString (String.ofList (blockValue raw))) (n + 2)
    | .error e => .fault e
  | cs =>
    match stringBody 0 cs with
    | .ok (value, n) => .token (.string (String.ofList value)) n
    | .error e => .fault e

/-- What stands at the start of the text `c :: cs`. -/
def lexeme (c : Char) (cs : List Char) : Lexeme :=
  if isBlank c then .blank 0
  else if c == '#' then .blank (runLength (fun c => !isLineEnd c) cs)
  else if c == '"' then afterQuote cs
  else if c == '.' then afterDot cs
  else if c == '-' || c.isDigit then .ofRead (number (c :: cs))
  else if isNameStart c then
    .token (.name (String.ofList (c :: cs.takeWhile isNameChar))) (runLength isNameChar cs)
  else if c == '\'' then .fault .singleQuote
  else
    match punctuator? c with
    | some p => .token (.punctuator p) 0
    | none => .fault (.character (some c))

/-- The tokens of a text whose first `skip` characters belong to what was read before. -/
def scan : (skip : Nat) → List Char → TokenStream
  | _, [] => .done
  | skip + 1, _ :: cs => scan skip cs
  | 0, c :: cs =>
    match lexeme c cs with
    | .blank skip => scan skip cs
    | .token t skip => .cons t (scan skip cs)
    | .fault e => .broken e

theorem scan_eq_scan_drop (n : Nat) (cs : List Char) : scan n cs = scan 0 (cs.drop n) := by
  induction cs generalizing n with
  | nil => simp [scan]
  | cons c cs ih =>
    cases n with
    | zero => rfl
    | succ n => simpa [scan] using ih n

end Lexer

def TokenStream.ofText (text : String) : TokenStream := Lexer.scan 0 text.toList

end SchemaModels.Document
