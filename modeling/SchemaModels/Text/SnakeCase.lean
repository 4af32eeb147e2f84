/-! # Snake case

An identifier is cut into words and written with underscores between them. A word is, by the first
rule that fits where it starts:

* the capitals in front of a capitalised word (`HTTP` in `HTTPServer`);
* an optional capital with the small letters and digits after it (`Server`, `v2`);
* a run of capitals and digits (`ID`, `AB1`).

Only ASCII letters and digits are part of a word. Every other character separates words. -/

namespace SchemaModels.Text

/-- A small letter or a digit. -/
def isLowerOrDigit (c : Char) : Bool := c.isLower || c.isDigit

/-- A capital or a digit. -/
def isUpperOrDigit (c : Char) : Bool := c.isUpper || c.isDigit

/-- The number of characters in the longest run of `p` at the start of the text. -/
def runLength (p : Char → Bool) (cs : List Char) : Nat := (cs.takeWhile p).length

/-- Whether the text starts with a character of the class. -/
def startsWith (p : Char → Bool) : List Char → Bool
  | [] => false
  | c :: _ => p c

/-- The length of the word that starts the text, `0` if none starts here. -/
def wordLength (cs : List Char) : Nat :=
  let capitals := runLength Char.isUpper cs
  let rest := cs.drop capitals
  if capitals = 0 then runLength isLowerOrDigit cs
  else if 2 ≤ capitals && startsWith Char.isLower rest then capitals - 1
  else if capitals = 1 && startsWith isLowerOrDigit rest then 1 + runLength isLowerOrDigit rest
  else runLength isUpperOrDigit cs

/-- The words of a text, given that its first `skip` characters belong to a word already found. -/
def wordsAfter : (skip : Nat) → List Char → List (List Char)
  | _, [] => []
  | skip + 1, _ :: cs => wordsAfter skip cs
  | 0, c :: cs =>
    match wordLength (c :: cs) with
    | 0 => wordsAfter 0 cs
    | n + 1 => (c :: cs.take n) :: wordsAfter n cs

/-- The words of a text, in order, as they are spelled there. -/
def words (cs : List Char) : List (List Char) := wordsAfter 0 cs

theorem wordsAfter_eq_words_drop (n : Nat) (cs : List Char) :
    wordsAfter n cs = words (cs.drop n) := by
  induction cs generalizing n with
  | nil => simp [words, wordsAfter]
  | cons c cs ih =>
    cases n with
    | zero => rfl
    | succ n => simpa [wordsAfter] using ih n

@[simp] theorem words_nil : words [] = [] := rfl

theorem words_cons_of_zero {c : Char} {cs : List Char} (h : wordLength (c :: cs) = 0) :
    words (c :: cs) = words cs := by
  rw [words, wordsAfter, h, words]

theorem words_cons_of_succ {c : Char} {cs : List Char} {n : Nat}
    (h : wordLength (c :: cs) = n + 1) :
    words (c :: cs) = (c :: cs.take n) :: words (cs.drop n) := by
  rw [words, wordsAfter, h, ← wordsAfter_eq_words_drop]

/-- Joins words by underscores. -/
def joinWords (ws : List (List Char)) : List Char := ['_'].intercalate ws

/-- The words of a text in small letters, joined by underscores. -/
def snakeChars (cs : List Char) : List Char :=
  joinWords ((words cs).map fun w => w.map Char.toLower)

/-- The snake-case form of an identifier. -/
def snakeCase (s : String) : String := String.ofList (snakeChars s.toList)

end SchemaModels.Text
