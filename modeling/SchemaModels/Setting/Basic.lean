import SchemaModels.Number.Double
import SchemaModels.Table
import SchemaModels.Text.RawText

/-! # Settings

A setting is a value as a settings file gives it, of whatever type. -/

namespace SchemaModels

inductive Setting
  | null
  | bool (b : Bool)
  | int (n : Int)
  | float (x : Double)
  | text (s : RawText)
  | list (items : List Setting)
  | object (entries : List (RawText × Setting))
  deriving Repr, Inhabited

namespace Setting

def ofString (s : String) : Setting := text (.ofString s)

/-- A value counts as false if it is null, zero or empty. -/
def truthy : Setting → Bool
  | null => false
  | bool b => b
  | int n => n != 0
  | float (.finite _ m _) => m != 0
  | float _ => true
  | text s => !s.isEmpty
  | list items => !items.isEmpty
  | object entries => !entries.isEmpty

/-- A value that can be looked up. Numbers of equal value are one key, and the truth values are the
numbers one and zero. -/
inductive Key
  | null
  | int (n : Int)
  | float (x : Double)
  | text (s : RawText)
  deriving DecidableEq, Repr

/-- The key that a value is; lists and objects are none. -/
def key? : Setting → Option Key
  | null => some .null
  | bool b => some (.int (if b then 1 else 0))
  | int n => some (.int n)
  | float x =>
    match x.toInt? with
    | some n => some (.int n)
    | none => some (.float x)
  | text s => some (.text s)
  | list _ | object _ => none

/-- The elements that a value is made of: the items of a list, the characters of a text, the keys of
an object. -/
def elements? : Setting → Option (List Setting)
  | list items => some items
  | text s => some (s.map fun c => .text [c])
  | object entries => some (entries.map fun e => .text e.1)
  | _ => none

/-- Whether two plain values are equal. Lists and objects equal no plain value. -/
def plainEq (a b : Setting) : Bool :=
  match a.key?, b.key? with
  | some k, some l => k == l
  | _, _ => false

end Setting

end SchemaModels
