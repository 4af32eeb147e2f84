/-! # Control sequences

A terminal takes an escape character and a bracket, with parameters and a final character after them,
as a command and shows nothing for it. -/

namespace SchemaModels.Text

def isParameter (c : Char) : Bool := '0' ≤ c && c ≤ '?'

def isIntermediate (c : Char) : Bool := ' ' ≤ c && c ≤ '/'

def isFinal (c : Char) : Bool := '@' ≤ c && c ≤ '~'

/-- The number of characters after the escape character in the control sequence that starts a text. -/
def controlLength? : List Char → Option Nat
  | '\x1b' :: '[' :: cs =>
    let parameters := cs.takeWhile isParameter
    let rest := cs.drop parameters.length
    let intermediates := rest.takeWhile isIntermediate
    match rest.drop intermediates.length with
    | c :: _ => if isFinal c then some (parameters.length + intermediates.length + 2) else none
    | [] => none
  | _ => none

/-- A text without its control sequences, where the first `skip` characters belong to one. -/
def withoutControlsAfter : (skip : Nat) → List Char → List Char
  | _, [] => []
  | skip + 1, _ :: cs => withoutControlsAfter skip cs
  | 0, c :: cs =>
    match controlLength? (c :: cs) with
    | some n => withoutControlsAfter n cs
    | none => c :: withoutControlsAfter 0 cs

/-- A text without its control sequences. -/
def withoutControls (s : String) : String := String.ofList (withoutControlsAfter 0 s.toList)

end SchemaModels.Text
