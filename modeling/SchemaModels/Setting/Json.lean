import SchemaModels.Setting.Basic
import SchemaModels.Text.Hex

/-! # Reading settings

Settings files hold one JSON value. The values `NaN`, `Infinity` and `-Infinity` are numbers, and of
several entries for a key the last one counts. -/

namespace SchemaModels.Setting

/-- Why a text is no value: it is not well formed, an integer in it has too many digits, or its lists
and objects nest too deep. -/
inductive JsonFault
  | malformed
  | integerTooLong
  | tooDeep
  deriving DecidableEq, Repr

namespace Json

open Text

/-! Each reader gives what it read and the text after it. -/

def isSpace (c : Char) : Bool := c == ' ' || c == '\t' || c == '\n' || c == '\r'

def skipSpace (cs : List Char) : List Char := cs.dropWhile isSpace

/-! ## Strings -/

def simpleEscape? : Char → Option Char
  | '"' => some '"' | '\\' => some '\\' | '/' => some '/' | 'b' => some '\x08'
  | 'f' => some '\x0c' | 'n' => some '\n' | 'r' => some '\r' | 't' => some '\t'
  | _ => none

/-- The code point of a Unicode escape and its number of characters after the `u`. Two escapes that
name a pair of surrogates are one. -/
def unicodeEscape? (cs : List Char) : Option (CodePoint × Nat) := do
  let code ← hex4? cs
  match cs.drop 4 with
  | '\\' :: 'u' :: low =>
    match hex4? low with
    | some low =>
      if isHighSurrogate code && isLowSurrogate low then
        return (.ofNat (surrogatePair code low), 10)
      else return (.ofNat code, 4)
    | none => return (.ofNat code, 4)
  | _ => return (.ofNat code, 4)

/-- The code points of a string up to its closing quote, in a text whose first `skip` characters belong
to an escape already read. -/
def string : (skip : Nat) → List Char → Except JsonFault (RawText × List Char)
  | _, [] => .error .malformed
  | skip + 1, _ :: cs => string skip cs
  | 0, '"' :: cs => .ok ([], cs)
  | 0, '\\' :: 'u' :: cs => do
    let some (c, n) := unicodeEscape? cs | .error .malformed
    let (s, rest) ← string n cs
    return (c :: s, rest)
  | 0, '\\' :: e :: cs => do
    let some c := simpleEscape? e | .error .malformed
    let (s, rest) ← string 0 cs
    return (.char c :: s, rest)
  | 0, c :: cs => do
    if c.toNat < 0x20 || c == '\\' then .error .malformed
    let (s, rest) ← string 0 cs
    return (.char c :: s, rest)

/-! ## Numbers -/

/-- The number that decimal digits spell. -/
def decimal (cs : List Char) : Nat := cs.foldl (fun n c => n * 10 + (c.toNat - '0'.toNat)) 0

/-- The digits at the start of a text, and what follows them. -/
def digits (cs : List Char) : List Char × List Char := cs.span Char.isDigit

/-- A point with digits after it, if one starts the text. -/
def fractionDigits : List Char → List Char × List Char
  | '.' :: cs =>
    match digits cs with
    | ([], _) => ([], '.' :: cs)
    | found => found
  | cs => ([], cs)

/-- The power of ten that starts the text, if one does. -/
def power? : List Char → Option (Int × List Char)
  | [] => none
  | e :: cs =>
    if e == 'e' || e == 'E' then
      let (negative, cs) :=
        match cs with
        | '-' :: cs => (true, cs)
        | '+' :: cs => (false, cs)
        | cs => (false, cs)
      match digits cs with
      | ([], _) => none
      | (ds, rest) => some (if negative then -(decimal ds : Int) else decimal ds, rest)
    else none

/-- Integers may have this many digits. -/
def maxIntegerDigits : Nat := 4300

/-- A number, given its sign and the digits before any point. -/
def numberFrom (negative : Bool) (whole rest : List Char) : Except JsonFault (Setting × List Char) :=
  let (fraction, afterFraction) := fractionDigits rest
  match power? afterFraction with
  | some (p, rest) =>
    .ok (.float (.ofDecimal negative (decimal (whole ++ fraction)) (p - fraction.length)), rest)
  | none =>
    if fraction.isEmpty then
      if maxIntegerDigits < whole.length then .error .integerTooLong
      else
        let n : Int := decimal whole
        .ok (.int (if negative then -n else n), rest)
    else
      .ok (.float (.ofDecimal negative (decimal (whole ++ fraction)) (-(fraction.length : Int))),
        afterFraction)

def number (negative : Bool) : List Char → Except JsonFault (Setting × List Char)
  | '0' :: cs => numberFrom negative ['0'] cs
  | cs =>
    match digits cs with
    | ([], _) => .error .malformed
    | (whole, rest) => numberFrom negative whole rest

/-! ## Values -/

/-- A word, if it starts the text, as a value. -/
def word? (word : String) (value : Setting) (cs : List Char) : Option (Setting × List Char) :=
  if word.toList.isPrefixOf cs then some (value, cs.drop word.length) else none

/-- A value that is neither a string, a list nor an object. -/
def plain (cs : List Char) : Except JsonFault (Setting × List Char) :=
  let words := [("null", .null), ("true", .bool true), ("false", .bool false),
    ("NaN", .float .nan), ("Infinity", .float (.infinite false)),
    ("-Infinity", .float (.infinite true))]
  match words.findSome? fun (w, v) => word? w v cs with
  | some found => .ok found
  | none =>
    match cs with
    | '-' :: cs => number true cs
    | cs => number false cs

mutual

/-- Reads a value, in which lists and objects may nest `room` deep. The bound counts steps: a text of
`n` characters takes at most `2 * n + 2`. -/
def value : (bound room : Nat) → List Char → Except JsonFault (Setting × List Char)
  | 0, _, _ => .error .malformed
  | _ + 1, _, '"' :: cs => do
    let (s, rest) ← string 0 cs
    return (.text s, rest)
  | _ + 1, 0, '[' :: _ | _ + 1, 0, '\x7b' :: _ => .error .tooDeep
  | bound + 1, room + 1, '[' :: cs =>
    match skipSpace cs with
    | ']' :: rest => .ok (.list [], rest)
    | cs => do
      let (items, rest) ← items bound room cs
      return (.list items, rest)
  | bound + 1, room + 1, '\x7b' :: cs =>
    match skipSpace cs with
    | '\x7d' :: rest => .ok (.object [], rest)
    | cs => do
      let (entries, rest) ← entries bound room cs
      return (.object (Table.ofList entries).entries, rest)
  | _ + 1, _, cs => plain cs

/-- Reads the items of a list up to its bracket. -/
def items : (bound room : Nat) → List Char → Except JsonFault (List Setting × List Char)
  | 0, _, _ => .error .malformed
  | bound + 1, room, cs => do
    let (v, rest) ← value bound room cs
    match skipSpace rest with
    | ',' :: rest =>
      let (vs, rest) ← items bound room (skipSpace rest)
      return (v :: vs, rest)
    | ']' :: rest => return ([v], rest)
    | _ => .error .malformed

/-- Reads the entries of an object up to its brace. -/
def entries : (bound room : Nat) → List Char → Except JsonFault (List (RawText × Setting) × List Char)
  | bound + 1, room, '"' :: cs => do
    let (k, rest) ← string 0 cs
    let ':' :: rest := skipSpace rest | .error .malformed
    let (v, rest) ← value bound room (skipSpace rest)
    match skipSpace rest with
    | ',' :: rest =>
      let (es, rest) ← entries bound room (skipSpace rest)
      return ((k, v) :: es, rest)
    | '\x7d' :: rest => return ([(k, v)], rest)
    | _ => .error .malformed
  | _, _, _ => .error .malformed

end

end Json

/-- Reads a text that holds one value, in which lists and objects nest at most `room` deep. -/
def parse (room : Nat) (text : String) : Except JsonFault Setting := do
  let cs := Json.skipSpace text.toList
  let (v, rest) ← Json.value (2 * cs.length + 2) room cs
  if (Json.skipSpace rest).isEmpty then return v else .error .malformed

end SchemaModels.Setting
