/-
What a session looks like on a terminal.

There are two consoles.  The plain one reads standard input and writes lines as they are.
The line editor also colours what it writes and keeps a history of what was typed; with
an input that is no terminal it reads plain lines too, in which it only obeys backspaces,
and shows the same prompts.
-/
import Mailroom.Debugger.Console
import Mailroom.Debugger.History
import Mailroom.Source
import Mailroom.Terminal.Color
import Mailroom.Text
import Mailroom.Text.Backspace

namespace Mailroom.Debugger

/-- Shown whenever a line is asked for. -/
def prompt : String := "% "

/-- The lines of an input, up to the first one that is no text. -/
structure Input where
  lines : List String
  /-- Is there a line that is no text? -/
  isBroken : Bool

namespace Input

/-- Decodes lines one by one. -/
def decode : List (List UInt8) → Input
  | [] => ⟨[], false⟩
  | line :: rest =>
    match Source.decode ⟨line.toArray⟩ with
    | .error _ => ⟨[], true⟩
    | .ok s =>
      let input := decode rest
      { input with lines := s :: input.lines }

/-- The lines of an input given by its bytes; each ends in a line feed or the two of CR LF. -/
def ofBytes (bytes : ByteArray) : Input :=
  decode (Text.lines 10 (Text.dropReturns 13 10 bytes.toList))

end Input

/-! ### The plain console -/

/-- The console of a session that reads this input. -/
def Input.plainConsole (input : Input) : Console where
  script := input.lines
  lastNotes :=
    if input.isBroken then
      [⟨.error, "can't read stdin: " ++ Source.Error.notText.message⟩]
    else []

/-- What appears on the screen. -/
def plainScreen (transcript : List Entry) : String :=
  String.join <| transcript.map fun
    | .read _ => prompt
    | .wrote line => line ++ "\n"

/-! ### The line editor -/

/-- The console of a session that reads this input. -/
def Input.editorConsole (input : Input) : Console where
  script := input.lines.map fun line => String.ofList (Text.applyBackspaces line.toList)

/-- What appears on the screen; the message about a line that is no text comes last. -/
def editorScreen (input : Input) (color : Bool) (transcript : List Entry) : String :=
  String.join <| transcript.map fun
    | .read (some _) => prompt
    | .read none =>
      if input.isBroken then prompt ++ "Error: " ++ Source.Error.notText.message ++ "\n"
      else prompt
    | .wrote line => (if color then Terminal.colorize line else line) ++ "\n"

/-- The history after the lines of a session have been added. -/
def recorded (h : History) (transcript : List Entry) : History :=
  transcript.foldl (fun h entry =>
    match entry with
    | .read (some line) => h.record line
    | _ => h) h

/-- Shown first if the history file is no text. -/
def historyReadMessage (cause : Source.Error) : String :=
  "Error while opening the history file: " ++ cause.message

/-- Shown last if the history file cannot be written. -/
def historyWriteMessage (cause : Source.Error) : String :=
  "Error while saving the history file: " ++ cause.message

end Mailroom.Debugger
