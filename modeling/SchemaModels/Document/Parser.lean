import SchemaModels.Document.Basic
import SchemaModels.Document.Lexer

/-! # The grammar of schema documents

Recursive descent over a token stream, with one token in view. Moving past a token brings the next one
into view, and a fault in that token stops the reading there. Lists, object values and selection sets
may nest 200 deep. -/

namespace SchemaModels.Document

/-- Reads a part of a document from the stream of tokens that are left. -/
abbrev Parser := StateT TokenStream (Except SyntaxError)

namespace Parser

variable {α : Type}

/-! ## Single tokens -/

/-- The token in view, `none` at the end of the document. -/
def peek : Parser (Option Token) := do
  match ← get with
  | .cons t _ => return some t
  | _ => return none

/-- Moves past the token in view. -/
def advance : Parser Unit := do
  match ← get with
  | .cons _ (.broken cause) => throw cause
  | .cons _ rest => set rest
  | _ => return

/-- The token after the one in view. -/
def lookahead : Parser (Option Token) := do
  match ← get with
  | .cons _ (.broken cause) => throw cause
  | .cons _ (.cons t _) => return some t
  | _ => return none

/-- Refuses the token in view. -/
def unexpected : Parser α := do throw (.unexpected (← peek))

/-- Whether a punctuator is in view. -/
def isAt (p : Punctuator) : Parser Bool := do
  return (← peek) == some (.punctuator p)

/-- Moves past a punctuator if it is in view, and tells whether it was. -/
def optional (p : Punctuator) : Parser Bool := do
  if ← isAt p then
    advance
    return true
  else return false

def expect (p : Punctuator) : Parser Unit := do
  if !(← optional p) then throw (.expected (.punctuator p) (← peek))

def name : Parser String := do
  match ← peek with
  | some (.name value) => advance; return value
  | found => throw (.expected .name found)

/-- Moves past a keyword if it is in view, and tells whether it was. -/
def optionalKeyword (word : String) : Parser Bool := do
  if (← peek) == some (.name word) then
    advance
    return true
  else return false

def keyword (word : String) : Parser Unit := do
  if !(← optionalKeyword word) then throw (.expected (.keyword word) (← peek))

/-- Moves past a description, if there is one. -/
def description : Parser Unit := do
  if (← peek).any Token.isString then advance

/-! ## Lists

An item takes at least one token, so the number of tokens left bounds the number of items. -/

/-- Reads items up to a closing punctuator. The first item is read without a look at it. -/
def itemsThen (item : Parser α) (right : Punctuator) : (bound : Nat) → Parser (List α)
  | 0 => unexpected
  | bound + 1 => do
    let a ← item
    if ← optional right then return [a]
    return a :: (← itemsThen item right bound)

/-- At least one item between punctuators. -/
def many (left : Punctuator) (item : Parser α) (right : Punctuator) : Parser (List α) := do
  expect left
  itemsThen item right ((← get).length + 1)

/-- Any number of items between punctuators. -/
def any (left : Punctuator) (item : Parser α) (right : Punctuator) : Parser (List α) := do
  expect left
  if ← optional right then return []
  itemsThen item right ((← get).length + 1)

/-- At least one item between punctuators, or nothing where the opening one is missing. -/
def optionalMany (left : Punctuator) (item : Parser α) (right : Punctuator) : Parser (List α) := do
  if ← isAt left then many left item right else return []

/-- Reads further items, each after a separator. -/
def furtherItems (sep : Punctuator) (item : Parser α) : (bound : Nat) → Parser (List α)
  | 0 => return []
  | bound + 1 => do
    if ← optional sep then
      let a ← item
      return a :: (← furtherItems sep item bound)
    else return []

/-- At least one item, with separators between them and perhaps one in front. -/
def delimited (sep : Punctuator) (item : Parser α) : Parser (List α) := do
  let _ ← optional sep
  let a ← item
  return a :: (← furtherItems sep item (← get).length)

/-- Reads items as long as their first punctuator is in view. -/
def itemsWhile (first : Punctuator) (item : Parser α) : (bound : Nat) → Parser (List α)
  | 0 => return []
  | bound + 1 => do
    if ← isAt first then
      let a ← item
      return a :: (← itemsWhile first item bound)
    else return []

/-! ## Types and values -/

/-- How deep lists, object values and selection sets may nest. -/
def room : Nat := 200

/-- Reads a type, where the item of a list is read by `item`. -/
def typeWith (item : Parser (TypeRef Empty)) : Parser (TypeRef Empty) := do
  let t ←
    if ← optional .bracketL then do
      let t ← item
      expect .bracketR
      pure (TypeRef.list t)
    else TypeRef.named <$> name
  if ← optional .bang then return .nonNull t else return t

/-- Reads a type. A list for which no room is left is refused after its bracket. -/
def typeRefWithin : (room : Nat) → Parser (TypeRef Empty)
  | 0 => typeWith (throw .tooDeep)
  | room + 1 => typeWith (typeRefWithin room)

def typeRef : Parser (TypeRef Empty) := typeRefWithin room

/-- Reads a variable, which a constant value may not hold. -/
def variableUse (constant : Bool) : Parser Unit := do
  let dollar ← peek
  expect .dollar
  if constant then
    match ← peek with
    | some (.name value) => throw (.variableInConstant value)
    | _ => throw (.unexpected dollar)
  else
    let _ ← name

/-- Reads a value that is neither a list nor an object. -/
def simpleValue (constant : Bool) : Parser Unit := do
  match ← peek with
  | some (.punctuator .dollar) => variableUse constant
  | some (.punctuator _) | none => unexpected
  | some _ => advance

/-- Reads a name, a colon and what follows them. -/
def labelled (item : Parser α) : Parser α := do
  let _ ← name
  expect .colon
  item

/-- Reads a value. A list or an object for which no room is left is refused at its bracket. -/
def valueWithin (constant : Bool) : (room : Nat) → Parser Unit
  | 0 => do
    if ← isAt .bracketL then throw .tooDeep
    else if ← isAt .braceL then throw .tooDeep
    else simpleValue constant
  | room + 1 => do
    if ← isAt .bracketL then
      let _ ← any .bracketL (valueWithin constant room) .bracketR
    else if ← isAt .braceL then
      let _ ← any .braceL (labelled (valueWithin constant room)) .braceR
    else simpleValue constant

def arguments (constant : Bool) (room : Nat) : Parser Unit := do
  let _ ← optionalMany .parenL (labelled (valueWithin constant room)) .parenR

def directive (constant : Bool) (room : Nat) : Parser Unit := do
  expect .at
  let _ ← name
  arguments constant room

/-- Reads directives and tells whether there was one. -/
def directivesWithin (constant : Bool) (room : Nat) : Parser Bool := do
  if ← isAt .at then
    let _ ← itemsWhile .at (directive constant room) (← get).length
    return true
  else return false

def directives : Parser Bool := directivesWithin true room

/-! ## Parts of type definitions -/

def defaultValue : Parser Unit := do
  if ← optional .equals then valueWithin true room

def inputValue : Parser (Field Empty) := do
  description
  let n ← name
  expect .colon
  let t ← typeRef
  defaultValue
  let _ ← directives
  return ⟨n, t⟩

def field : Parser (Field Empty) := do
  description
  let n ← name
  let _ ← optionalMany .parenL inputValue .parenR
  expect .colon
  let t ← typeRef
  let _ ← directives
  return ⟨n, t⟩

/-- The names that cannot be enum values. -/
def reservedValues : List String := ["true", "false", "null"]

def enumValue : Parser String := do
  description
  if let some t ← peek then
    if t.value?.any reservedValues.contains then throw (.reservedEnumValue t)
  let n ← name
  let _ ← directives
  return n

def interfaces : Parser (List String) := do
  if ← optionalKeyword "implements" then delimited .amp name else return []

def fields : Parser (List (Field Empty)) := optionalMany .braceL field .braceR

def operationTypes : List String := ["query", "mutation", "subscription"]

def operationType : Parser Unit := do
  let found ← peek
  let n ← name
  if !operationTypes.contains n then throw (.unexpected found)

/-- One entry of a schema definition: an operation type with the name of a type. -/
def rootType : Parser Unit := do
  operationType
  expect .colon
  let _ ← name

/-- The places at which a directive can be used. -/
def locations : List String :=
  ["QUERY", "MUTATION", "SUBSCRIPTION", "FIELD", "FRAGMENT_DEFINITION", "FRAGMENT_SPREAD",
    "INLINE_FRAGMENT", "VARIABLE_DEFINITION", "FRAGMENT_VARIABLE_DEFINITION", "SCHEMA", "SCALAR",
    "OBJECT", "FIELD_DEFINITION", "ARGUMENT_DEFINITION", "INTERFACE", "UNION", "ENUM", "ENUM_VALUE",
    "INPUT_OBJECT", "INPUT_FIELD_DEFINITION", "DIRECTIVE_DEFINITION"]

def location : Parser Unit := do
  let found ← peek
  let n ← name
  if !locations.contains n then throw (.unexpected found)

/-! ## Type definitions and their extensions

Each of these reads what follows the keyword. The flag of a body says whether it has a part after the
name; an extension needs one. -/

/-- The body of a definition: a name, a content, and whether a part follows the name. -/
structure Body where
  name : String
  content : Content Empty
  hasPart : Bool

def objectBody : Parser Body := do
  let n ← name
  let is ← interfaces
  let ds ← directives
  let fs ← fields
  return ⟨n, .object fs is, !is.isEmpty || ds || !fs.isEmpty⟩

def interfaceBody : Parser Body := do
  let n ← name
  let is ← interfaces
  let ds ← directives
  let fs ← fields
  return ⟨n, .interface fs, !is.isEmpty || ds || !fs.isEmpty⟩

def unionBody : Parser Body := do
  let n ← name
  let ds ← directives
  let ms ← if ← optional .equals then delimited .pipe name else pure []
  return ⟨n, .union (ms.map .named), ds || !ms.isEmpty⟩

def enumBody : Parser Body := do
  let n ← name
  let ds ← directives
  let vs ← optionalMany .braceL enumValue .braceR
  return ⟨n, .enum vs, ds || !vs.isEmpty⟩

def inputBody : Parser Body := do
  let n ← name
  let ds ← directives
  let fs ← optionalMany .braceL inputValue .braceR
  return ⟨n, .input fs, ds || !fs.isEmpty⟩

/-- The body of a definition that opens with a keyword, `none` for any other keyword. -/
def body? : String → Option (Parser Body)
  | "type" => some objectBody
  | "interface" => some interfaceBody
  | "union" => some unionBody
  | "enum" => some enumBody
  | "input" => some inputBody
  | _ => none

def schemaDefinition : Parser Node := do
  let _ ← directives
  let _ ← many .braceL rootType .braceR
  return .skipped .schema

def scalarDefinition : Parser Node := do
  let n ← name
  let _ ← directives
  return .scalar n

def directiveDefinition : Parser Node := do
  expect .at
  let _ ← name
  let _ ← optionalMany .parenL inputValue .parenR
  let _ ← directives
  let _ ← optionalKeyword "repeatable"
  keyword "on"
  let _ ← delimited .pipe location
  return .skipped .directive

def schemaExtension : Parser Node := do
  let ds ← directives
  let types ← optionalMany .braceL rootType .braceR
  if ds || !types.isEmpty then return .skipped .schemaExtension else unexpected

def scalarExtension : Parser Node := do
  let n ← name
  if ← directives then return .scalarExtension n else unexpected

def directiveExtension : Parser Node := do
  expect .at
  let _ ← name
  if ← directives then return .skipped .directiveExtension else unexpected

/-! ## Operations and fragments -/

/-- Reads the name of a fragment, which cannot be `on`. -/
def fragmentName : Parser Unit := do
  if (← peek).any (·.value? == some "on") then unexpected
  let _ ← name

/-- Reads what follows the dots of a spread: a fragment's name, or a selection of its own. -/
def spread (room : Nat) (selections : Parser Unit) : Parser Unit := do
  if ← optionalKeyword "on" then
    let _ ← name
    let _ ← directivesWithin false room
    selections
  else if let some (.name _) ← peek then
    fragmentName
    let _ ← directivesWithin false room
  else
    let _ ← directivesWithin false room
    selections

/-- Reads one selection, whose values may nest within `room` and whose own selections are read by
`selections`. -/
def selection (room : Nat) (selections : Parser Unit) : Parser Unit := do
  if ← optional .spread then spread room selections
  else
    let _ ← name
    if ← optional .colon then
      let _ ← name
    arguments false room
    let _ ← directivesWithin false room
    if ← isAt .braceL then selections

/-- Reads a selection set. One for which no room is left is refused where it has to start. -/
def selectionsWithin : (room : Nat) → Parser Unit
  | 0 => throw .tooDeep
  | room + 1 => do
    let _ ← any .braceL (selection room (selectionsWithin room)) .braceR

def selections : Parser Unit := selectionsWithin room

def variableDefinition : Parser Unit := do
  description
  variableUse false
  expect .colon
  let _ ← typeRef
  defaultValue
  let _ ← directives

def operation : Parser Node := do
  if let some (.name _) ← peek then
    let _ ← name
  let _ ← optionalMany .parenL variableDefinition .parenR
  let _ ← directivesWithin false room
  selections
  return .skipped .operation

def fragment : Parser Node := do
  fragmentName
  keyword "on"
  let _ ← name
  let _ ← directivesWithin false room
  selections
  return .skipped .fragment

/-! ## Documents -/

/-- The rest of a definition that opens with a keyword, `none` if no definition does. -/
def definition? : String → Option (Parser Node)
  | "schema" => some schemaDefinition
  | "scalar" => some scalarDefinition
  | "directive" => some directiveDefinition
  | "query" | "mutation" | "subscription" => some operation
  | "fragment" => some fragment
  | word => (body? word).map fun p => do
    let b ← p
    return .definition b.name b.content

/-- The rest of an extension that opens with a keyword, `none` if no extension does. -/
def extension? : String → Option (Parser Node)
  | "schema" => some schemaExtension
  | "scalar" => some scalarExtension
  | "directive" => some directiveExtension
  | word => (body? word).map fun p => do
    let b ← p
    if b.hasPart then return .extension b.name b.content else unexpected

def extension : Parser Node := do
  match ← lookahead with
  | some (.name word) =>
    match extension? word with
    | some p => advance; advance; p
    | none => throw (.unexpected (some (.name word)))
  | found => throw (.unexpected found)

/-- Reads a definition whose keyword is `found`, with a description in front of it or not. -/
def keywordDefinition (described : Bool) (found : Option Token) : Parser Node := do
  match found with
  | some (.name word) =>
    match definition? word with
    | some p => description; advance; p
    | none =>
      if described then throw .describedOther
      else if word == "extend" then extension
      else throw (.unexpected found)
  | _ => throw (.unexpected found)

/-- Reads one top-level node. -/
def node : Parser Node := do
  if ← isAt .braceL then
    selections
    return .skipped .operation
  let first ← peek
  if first.any Token.isString then
    let next ← lookahead
    if next == some (.punctuator .braceL) then throw .describedShorthand
    keywordDefinition true next
  else keywordDefinition false first

/-- Reads top-level nodes up to the end of the document. -/
def nodes : (bound : Nat) → Parser (List Node)
  | 0 => unexpected
  | bound + 1 => do
    let n ← node
    if (← peek).isNone then return [n]
    return n :: (← nodes bound)

/-- Brings the first token into view and reads all nodes. -/
def document : Parser Document := do
  if let .broken cause ← get then throw cause
  return ⟨← nodes ((← get).length + 1)⟩

end Parser

/-- Reads a document of at least one node. -/
def parse (text : String) : Except SyntaxError Document :=
  (Parser.document.run (TokenStream.ofText text)).map (·.1)

end SchemaModels.Document
