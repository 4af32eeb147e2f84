/-! # Names the target language keeps for itself -/

namespace SchemaModels.Text

/-- The keywords of Python. None of them can be the name of an attribute or an enum member. -/
def keywords : List String :=
  ["False", "None", "True", "and", "as", "assert", "async", "await", "break", "class", "continue",
    "def", "del", "elif", "else", "except", "finally", "for", "from", "global", "if", "import", "in",
    "is", "lambda", "nonlocal", "not", "or", "pass", "raise", "return", "try", "while", "with",
    "yield"]

def isKeyword (name : String) : Bool := keywords.contains name

end SchemaModels.Text
