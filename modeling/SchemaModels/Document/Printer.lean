import SchemaModels.Document.Basic
import SchemaModels.Document.Token

/-! # Schema documents as text

Scalars and definitions written out, as the sequence of the tokens that spell them. Parts that are
empty are left out. -/

namespace SchemaModels

/-- The tokens that spell a type. -/
def TypeRef.tokens : TypeRef Empty → List Document.Token
  | .named name => [.name name]
  | .list item => .punctuator .bracketL :: item.tokens ++ [.punctuator .bracketR]
  | .nonNull inner => inner.tokens ++ [.punctuator .bang]

/-- The tokens that spell a field. -/
def Field.tokens (f : Field Empty) : List Document.Token :=
  .name f.name :: .punctuator .colon :: f.type.tokens

namespace Document

/-- Parts with a punctuator between them. -/
def separated (p : Punctuator) : List (List Token) → List Token
  | [] => []
  | [part] => part
  | part :: parts => part ++ .punctuator p :: separated p parts

/-- A list of parts after an opening, which goes away with the last of them. -/
def opened (opening : Token) (p : Punctuator) (parts : List (List Token)) : List Token :=
  if parts.isEmpty then [] else opening :: separated p parts

/-- Parts in braces, which go away with the last of them. -/
def braced (parts : List (List Token)) : List Token :=
  if parts.isEmpty then []
  else .punctuator .braceL :: parts.flatten ++ [.punctuator .braceR]

/-- The tokens that spell a definition. -/
def definitionTokens (name : String) : Content Empty → List Token
  | .enum values => .name "enum" :: .name name :: braced (values.map fun v => [.name v])
  | .union members =>
    .name "union" :: .name name :: opened (.punctuator .equals) .pipe (members.map TypeRef.tokens)
  | .interface fields => .name "interface" :: .name name :: braced (fields.map Field.tokens)
  | .object fields interfaces =>
    .name "type" :: .name name ::
      opened (.name "implements") .amp (interfaces.map fun i => [.name i]) ++
      braced (fields.map Field.tokens)
  | .input fields => .name "input" :: .name name :: braced (fields.map Field.tokens)

/-- A part of a document that can be written out. -/
inductive Item
  | scalar (name : String)
  | definition (name : String) (content : Content Empty)
  deriving DecidableEq, Repr

namespace Item

/-- The node that an item is in a document. -/
def node : Item → Node
  | scalar name => .scalar name
  | definition name content => .definition name content

/-- The tokens that spell an item. -/
def tokens : Item → List Token
  | scalar name => [.name "scalar", .name name]
  | definition name content => definitionTokens name content

end Item

/-- The spelling of a name or a punctuator, the only tokens that items consist of. -/
def Token.spelling? : Token → Option String
  | name value => some value
  | punctuator p => some p.text
  | _ => none

/-- The spellings of the tokens of items. -/
def words (items : List Item) : List String := (items.flatMap Item.tokens).filterMap Token.spelling?

/-- Words in order, with a text in front of each of them and one at the end. -/
def weave (gap : Nat → String) : List String → String
  | [] => gap 0
  | word :: words => gap 0 ++ word ++ weave (fun i => gap (i + 1)) words

/-- The text of items, where `gap` tells what stands around their tokens. -/
def print (gap : Nat → String) (items : List Item) : String := weave gap (words items)

end Document

end SchemaModels
