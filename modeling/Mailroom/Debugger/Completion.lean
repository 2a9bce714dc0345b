/-
Completing a line of the debugger's command language.

The word to complete is what stands between the last space before the cursor and the
cursor.  The first word of a line can be completed to a command letter and any other to
one of the given symbols.  Cursor positions count bytes of UTF-8, as editors do.
-/
import Mailroom.Debugger.Command
import Mailroom.Text

namespace Mailroom.Debugger

/-- The characters behind the last space. -/
def lastWord (cs : List Char) : List Char :=
  (cs.reverse.takeWhile (· != ' ')).reverse

/-- Where the word at the cursor starts, and what it can be completed to. -/
def complete (symbols : List String) (line : String) (pos : Nat) : Nat × List String :=
  let before := Text.before pos line.toList
  let word := lastWord before
  let start := Text.byteLength before - Text.byteLength word
  let words := if start = 0 then Command.letters.map Char.toString else symbols
  (start, words.filter fun w => word.isPrefixOf w.toList)

end Mailroom.Debugger
