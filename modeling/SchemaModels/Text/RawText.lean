/-! # Raw texts

The texts of a settings file. An escape there can name one half of a surrogate pair alone, which is no
character. Such a text can be compared and quoted, but no file can hold it. -/

namespace SchemaModels

/-- A character, or a surrogate without its other half. -/
inductive CodePoint
  | char (c : Char)
  | surrogate (offset : Fin 0x800)
  deriving DecidableEq, Repr

namespace CodePoint

/-- The code point with a number. -/
def ofNat (n : Nat) : CodePoint :=
  if n.isValidChar then .char (Char.ofNat n) else .surrogate (Fin.ofNat 0x800 (n - 0xd800))

/-- The character of a code point, with another one in the place of a surrogate. -/
def charOr (standIn : Char) : CodePoint → Char
  | char c => c
  | surrogate _ => standIn

def char? : CodePoint → Option Char
  | char c => some c
  | surrogate _ => none

end CodePoint

abbrev RawText := List CodePoint

namespace RawText

def ofString (s : String) : RawText := s.toList.map .char

/-- The text with a character in the place of each surrogate. -/
def toStringWith (standIn : Char) (t : RawText) : String :=
  String.ofList (t.map (·.charOr standIn))

/-- The text as a string, if it holds no surrogate. -/
def toString? (t : RawText) : Option String := (t.mapM CodePoint.char?).map String.ofList

@[simp] theorem toStringWith_ofString (standIn : Char) (s : String) :
    (ofString s).toStringWith standIn = s := by
  simp [ofString, toStringWith, Function.comp_def, CodePoint.charOr]

theorem mapM_char?_map (cs : List Char) : (cs.map CodePoint.char).mapM CodePoint.char? = some cs := by
  induction cs with
  | nil => rfl
  | cons c cs ih => rw [List.map_cons, List.mapM_cons, ih]; rfl

@[simp] theorem toString?_ofString (s : String) : (ofString s).toString? = some s := by
  rw [toString?, ofString, mapM_char?_map, Option.map_some, String.ofList_toList]

end RawText

end SchemaModels
