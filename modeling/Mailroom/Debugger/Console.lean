/-
The console that a session talks to.

What the user is going to type is known as a script of lines, and what has been typed and
shown so far is kept as a transcript.  The session only reads the next line and writes
lines; how this looks on a screen is decided afterwards, from the transcript.
-/
import Mailroom.Log

namespace Mailroom.Debugger

/-- One exchange between the session and its console. -/
inductive Entry where
  /-- A line was asked for; `none` if there was none left. -/
  | read (line : Option String)
  | wrote (line : String)
  deriving DecidableEq

/-- The lines not yet read, and what has happened. -/
structure Console where
  script : List String := []
  transcript : Array Entry := #[]
  /-- What is reported when a line is asked for and there is none left. -/
  lastNotes : List Log.Record := []
  deriving DecidableEq

namespace Console

instance : Inhabited Console := ⟨{}⟩

/-- Shows some lines. -/
def write (c : Console) (lines : List String) : Console :=
  { c with transcript := c.transcript ++ (lines.map Entry.wrote).toArray }

/-- The lines shown so far. -/
def written (c : Console) : List String :=
  c.transcript.toList.filterMap fun
    | .wrote line => some line
    | .read _ => none

end Console

end Mailroom.Debugger
