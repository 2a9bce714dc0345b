/-
Program text as it is found in a file.

A file is given by its bytes, or by `none` where it cannot be opened.
-/

namespace Mailroom

/-- What keeps a file from being read as text. -/
inductive Source.Error where
  /--
  The file cannot be opened.  Whatever the reason is, it counts as a missing file and has
  the one message of that.
  -/
  | missing
  | notText
  deriving DecidableEq

/-- The sentence shown to the user. -/
def Source.Error.message : Source.Error → String
  | missing => "No such file or directory (os error 2)"
  | notText => "stream did not contain valid UTF-8"

/-- Bytes as text, which they are if they are valid UTF-8. -/
def Source.decode (bytes : ByteArray) : Except Source.Error String :=
  match String.fromUTF8? bytes with
  | some s => .ok s
  | none => .error .notText

/-- The text of a file. -/
def Source.read (file : Option ByteArray) : Except Source.Error String :=
  match file with
  | some bytes => decode bytes
  | none => .error .missing

end Mailroom
