/-! # Lines of text

Where a text breaks into lines, and the newlines at its end. -/

namespace SchemaModels.Text

/-- The characters that end a line. A carriage return with a line feed after it ends one line. -/
def lineBreaks : List Char :=
  ['\n', '\r', '\x0b', '\x0c', '\x1c', '\x1d', '\x1e', '\u0085', '\u2028', '\u2029']

def isLineBreak (c : Char) : Bool := lineBreaks.contains c

/-- The lines of a text after the characters `line` of a line already begun, in reverse. A break at
the end of the text begins no further line. -/
def linesFrom : (line : List Char) → List Char → List (List Char)
  | [], [] => []
  | line, [] => [line.reverse]
  | line, '\r' :: '\n' :: cs => line.reverse :: linesFrom [] cs
  | line, c :: cs => if isLineBreak c then line.reverse :: linesFrom [] cs else linesFrom (c :: line) cs

/-- The lines of a text, without their breaks. -/
def splitLines (s : String) : List String := (linesFrom [] s.toList).map String.ofList

/-- Drops all newlines at the end. -/
def trimNewlines (s : String) : String :=
  String.ofList (s.toList.reverse.dropWhile (· == '\n')).reverse

/-- The lines joined by newlines. -/
def joinLines (lines : List String) : String := "\n".intercalate lines

/-- Every line ending, a carriage return or one with a line feed, becomes a line feed. -/
def normalizeNewlines : List Char → List Char
  | [] => []
  | '\r' :: '\n' :: cs => '\n' :: normalizeNewlines cs
  | '\r' :: cs => '\n' :: normalizeNewlines cs
  | c :: cs => c :: normalizeNewlines cs

end SchemaModels.Text
