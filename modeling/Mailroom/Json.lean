/-
JSON documents, as far as they can be read.

A document that describes a floor may be wrong in two ways: it may not be JSON, or it
may be JSON of another shape.  Of all that is wrong with it, the problem that comes
first in the text is the one to report.  So reading never fails as a whole.  It gives a
tree of what stands before the first place where the text stops being JSON, with a mark
at that place, and whoever walks the tree in reading order meets the mark, or a part of
the wrong shape, whichever comes first.

A mark is a broken value, or the early end of an array or an object in whose place a
separator or a closing bracket was due.
-/
import Mailroom.Value

namespace Mailroom

/-- Why a text stops being JSON. -/
inductive Json.Fault where
  /-- A character that cannot stand where it stands. -/
  | malformed
  /-- The text ends before the document does. -/
  | endsEarly
  deriving DecidableEq

/-- A document up to the first place where it stops being one. -/
inductive Json where
  | null
  | bool (b : Bool)
  /-- A number written without fraction and exponent that is not minus zero. -/
  | integer (n : Int)
  /-- Any other number. -/
  | fractional
  | string (s : String)
  | array (items : List Json) (stop : Option Json.Fault)
  | object (members : List (String × Json)) (stop : Option Json.Fault)
  | broken (fault : Json.Fault)

namespace Json

instance : Inhabited Json := ⟨.null⟩

mutual

/-- The first place in the value where the text stops being JSON. -/
def fault? : Json → Option Fault
  | broken fault => some fault
  | array items stop => (itemsFault? items).or stop
  | object members stop => (membersFault? members).or stop
  | _ => none

/-- The first fault in a list of items. -/
def itemsFault? : List Json → Option Fault
  | [] => none
  | item :: rest => item.fault?.or (itemsFault? rest)

/-- The first fault in the values of a list of members. -/
def membersFault? : List (String × Json) → Option Fault
  | [] => none
  | (_, value) :: rest => value.fault?.or (membersFault? rest)

end

/-- Why a document gives no floor and no value. -/
inductive Error where
  | text (fault : Fault)
  /-- The text is JSON but not of the shape that is asked for. -/
  | shape
  /-- A string that spells no value. -/
  | value (cause : Value.Malformed)
  deriving DecidableEq

/-- A string of the wrong length is quoted to the user, other problems are not. -/
def Error.message? : Error → Option String
  | value cause => some cause.message
  | _ => none

end Json

/--
A value is an integer of 64 bits or a string of one character.  Its shape is judged only
after the whole of it has been read.
-/
def Value.ofJson (j : Json) : Except Json.Error Value :=
  match j.fault? with
  | some fault => .error (.text fault)
  | none =>
    match j with
    | .integer n =>
      match Numeral.word? n with
      | some w => .ok (.int w)
      | none => .error .shape
    | .string s =>
      match Value.ofSingle? s with
      | some v => .ok v
      | none => .error (.value ⟨s⟩)
    | _ => .error .shape

end Mailroom
