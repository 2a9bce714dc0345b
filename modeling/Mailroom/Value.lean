/-
Values: what a tile, the accumulator and the two boxes can hold.

A value is a 64-bit integer or a letter, and a letter is any single character, the
digits among them.  That is why values have two texts.  `text` is what a person types
and cannot tell the integer 5 from the letter 5; `quoted` puts letters in quotes, and
`listText` writes whole boxes with it.
-/
import Mailroom.Numeral

namespace Mailroom

/-- An integer of 64 bits or a single character. -/
inductive Value where
  | int (n : Int64)
  | letter (c : Char)
  deriving DecidableEq

namespace Value

instance : Inhabited Value := ⟨.int 0⟩

/-- The integer, unless the value is a letter. -/
def int? : Value → Option Int64
  | .int n => some n
  | .letter _ => none

/-- The letter that a text of exactly one character spells. -/
def ofSingle? (s : String) : Option Value :=
  match s.toList with
  | [c] => some (.letter c)
  | _ => none

/-- An integer if the text is a numeral, else its only character. -/
def read? (s : String) : Option Value :=
  match Numeral.signed? s with
  | some n => some (.int n)
  | none => ofSingle? s

/-- Digits or the bare character. -/
def text : Value → String
  | .int n => Numeral.ofInt n.toInt
  | .letter c => c.toString

/-- Like `text`, with single quotes around a letter. -/
def quoted : Value → String
  | .int n => Numeral.ofInt n.toInt
  | .letter c => "'" ++ c.toString ++ "'"

/-- The contents of a box, in brackets and separated by commas. -/
def listText (values : List Value) : String :=
  "[" ++ ", ".intercalate (values.map quoted) ++ "]"

/-- The quoted value, or a word for there being none. -/
def orEmpty : Option Value → String
  | some v => v.quoted
  | none => "empty"

/-- Refusal of a text that spells no value. -/
structure Malformed where
  raw : String
  deriving DecidableEq

/-- The sentence shown to the user. -/
def Malformed.message (e : Malformed) : String :=
  "\"" ++ e.raw ++ "\" is neither an integer nor a single character"

end Value

end Mailroom
