import SchemaModels.TypeRef

/-! # Definitions of a schema

A definition has a name, its place among the top-level nodes of the document, and a content: what an
enum, a union, an interface, an object type or an input type is made of. -/

namespace SchemaModels

structure Field (γ : Type) where
  name : String
  type : TypeRef γ
  deriving DecidableEq, Repr

/-- The kinds of definitions that become declarations. -/
inductive Kind
  | enum | union | interface | object | input
  deriving DecidableEq, Repr

/-- What a definition is made of. With `γ` inhabited it may also be of no particular kind. -/
inductive Content (γ : Type)
  | enum (values : List String)
  | union (members : List (TypeRef γ))
  | interface (fields : List (Field γ))
  | object (fields : List (Field γ)) (interfaces : List String)
  | input (fields : List (Field γ))
  | other (gap : γ)
  deriving DecidableEq, Repr

structure Definition (γ : Type) where
  name : String
  position : Nat
  content : Content γ
  deriving DecidableEq, Repr

variable {γ : Type}

def Field.widen (f : Field Empty) : Field γ := ⟨f.name, f.type.widen⟩

namespace Content

def widen : Content Empty → Content γ
  | enum values => .enum values
  | union members => .union (members.map .widen)
  | interface fields => .interface (fields.map .widen)
  | object fields interfaces => .object (fields.map .widen) interfaces
  | input fields => .input (fields.map .widen)

def kind : Content Empty → Kind
  | enum _ => .enum
  | union _ => .union
  | interface _ => .interface
  | object .. => .object
  | input _ => .input

/-! ### The parts of a content -/

/-- The values of an enum. -/
def values : Content Empty → List String
  | enum values => values
  | union _ | interface _ | object .. | input _ => []

/-- The members of a union. -/
@[simp] def members : Content Empty → List (TypeRef Empty)
  | union members => members
  | enum _ | interface _ | object .. | input _ => []

/-- The fields of an interface, an object type or an input type. -/
@[simp] def fields : Content Empty → List (Field Empty)
  | interface fields | object fields _ | input fields => fields
  | enum _ | union _ => []

/-- The interfaces that an object type implements. -/
@[simp] def interfaces : Content Empty → List String
  | object _ interfaces => interfaces
  | enum _ | union _ | interface _ | input _ => []

/-- Two contents of one kind, one after the other; `none` for contents of different kinds. -/
def append? : Content Empty → Content Empty → Option (Content Empty)
  | enum vs, enum ws => some (.enum (vs ++ ws))
  | union ms, union ns => some (.union (ms ++ ns))
  | interface fs, interface gs => some (.interface (fs ++ gs))
  | object fs is, object gs js => some (.object (fs ++ gs) (is ++ js))
  | input fs, input gs => some (.input (fs ++ gs))
  | _, _ => none

end Content

def Definition.widen (d : Definition Empty) : Definition γ := ⟨d.name, d.position, d.content.widen⟩

end SchemaModels
