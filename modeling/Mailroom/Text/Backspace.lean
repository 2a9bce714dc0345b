/-
Backspaces in a typed line.

A backspace takes back the cluster that was typed last, so that a letter goes together
with its accents.  With nothing left to take back it does nothing, and it never becomes
part of the line.

The line is kept with the widths of its clusters, and a width is a count of bytes of at
most eight bits.  What is taken back is as many bytes as the last width says, and that is
the whole cluster unless the cluster is longer than 255 bytes.
-/
import Mailroom.Text
import Mailroom.Text.Grapheme

namespace Mailroom.Text

/-- The character that takes back what was typed. -/
def backspace : Char := '\x08'

/-- A line while it is typed, the last character and the last width first. -/
structure Typed where
  reversed : List Char := []
  widths : List Nat := []
  deriving DecidableEq

namespace Typed

/-- What a width is counted modulo. -/
def widthBound : Nat := 256

/-- Adds a cluster at the end. -/
def push (t : Typed) (cluster : List Char) : Typed where
  reversed := cluster.reverse ++ t.reversed
  widths := byteLength cluster % widthBound :: t.widths

/-- Takes back the last cluster. -/
def takeBack (t : Typed) : Typed :=
  match t.widths with
  | [] => t
  | width :: widths => ⟨dropBytes width t.reversed, widths⟩

/-- Enters a cluster, which may be a backspace. -/
def enter (t : Typed) (cluster : List Char) : Typed :=
  if cluster = [backspace] then t.takeBack else t.push cluster

end Typed

/-- The line that is left when all of a text has been entered. -/
def applyBackspaces (cs : List Char) : List Char :=
  ((clusters cs).foldl Typed.enter {}).reversed.reverse

end Mailroom.Text
