/-! # Type references

A field names its type by a reference: a name, a list of a type, or a type that admits no null. -/

namespace SchemaModels

/-- A reference to a type. `γ` says what else may stand in the place of a type; `TypeRef Empty` holds
nothing but names, lists and non-null types. -/
inductive TypeRef (γ : Type)
  | named (name : String)
  | list (item : TypeRef γ)
  | nonNull (inner : TypeRef γ)
  | other (gap : γ)
  deriving DecidableEq, Repr

/-- What may stand for a type in a definition that no document spells: nothing at all, or a reference
of no particular form. -/
inductive Gap
  | absent
  | general
  deriving DecidableEq, Repr

/-- A name that stands where a type belongs, without being a reference to one. -/
structure BareName where
  name : String
  deriving DecidableEq, Repr

namespace TypeRef

variable {γ δ : Type}

def map (f : γ → δ) : TypeRef γ → TypeRef δ
  | named name => .named name
  | list item => .list (item.map f)
  | nonNull inner => .nonNull (inner.map f)
  | other gap => .other (f gap)

/-- A reference without gaps, seen among those that may have some. -/
def widen (t : TypeRef Empty) : TypeRef γ := t.map Empty.elim

/-- The reference itself if it has no gap, else the gap. -/
def complete : TypeRef γ → Except γ (TypeRef Empty)
  | named name => .ok (.named name)
  | list item => item.complete.map .list
  | nonNull inner => inner.complete.map .nonNull
  | other gap => .error gap

end TypeRef

end SchemaModels
