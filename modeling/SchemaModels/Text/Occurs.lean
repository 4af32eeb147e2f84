/-! # Texts inside texts -/

namespace SchemaModels.Text

/-- Whether a text occurs in another, in one piece. The empty text occurs in every text. -/
def occursIn (part : List Char) : List Char → Bool
  | [] => part.isEmpty
  | c :: cs => part.isPrefixOf (c :: cs) || occursIn part cs

/-- Splits a text at its last full stop: what stands before it and after it. -/
def splitLastDot : List Char → Option (List Char × List Char)
  | [] => none
  | c :: cs =>
    match splitLastDot cs with
    | some (before, after) => some (c :: before, after)
    | none => if c == '.' then some ([], cs) else none

end SchemaModels.Text
