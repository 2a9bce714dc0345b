/-
The program: reads files and standard input, hands them to the library and prints what
comes back.

Runs of the debugger are conversations, but a session takes all its lines from a script.
So the session is run again with one more line each time a line is asked for, and only
what is new on its transcript is shown.
-/
import Mailroom.CommandLine
import Mailroom.Computer.Report
import Mailroom.Computer.Setup
import Mailroom.Debugger
import Mailroom.Debugger.Screen
import Mailroom.Terminal.Color

namespace Mailroom.Main

open Mailroom.CommandLine

/-- More turns than any run will take. -/
def fuel : Nat := Nat.pow 2 62

/-- Exit codes: the input is at fault, or the program failed while it ran. -/
def badInput : UInt32 := 1

def runFailed : UInt32 := 2

/-- The bytes of a file, or nothing if it cannot be read. -/
def fileBytes (name : String) : IO (Option ByteArray) := do
  try
    return some (← IO.FS.readBinFile name)
  catch _ =>
    return none

/-- All bytes of standard input. -/
def inputBytes : IO ByteArray := do
  let input ← IO.getStdin
  let mut bytes := ByteArray.empty
  repeat
    let chunk ← input.read 65536
    if chunk.isEmpty then break
    bytes := bytes ++ chunk
  return bytes

def printLines (lines : List String) : IO Unit :=
  lines.forM fun line => IO.println line

/-- Prints lines of a listing, coloured unless plain text is asked for. -/
def printListing (o : Options) (lines : List String) : IO Unit :=
  printLines (if o.plain then lines else lines.map Terminal.colorize)

/-- Prints the records that are severe enough. -/
def report (o : Options) (records : List Log.Record) : IO Unit :=
  (Log.kept (.ofVerbosity o.verbosity) records).forM fun record =>
    IO.eprintln ("[" ++ record.level.name ++ "] " ++ record.text)

/-- Records of a text being loaded from a file. -/
def loadRecords (file : Option ByteArray) : List Log.Record :=
  match Source.read file with
  | .ok source => Computer.loadRecords source
  | .error _ => []

/-- The floor that is asked for; without one it is empty. -/
def floor (o : Options) : IO (Except Floor.FileError Floor) := do
  match o.floor with
  | none => return .ok {}
  | some name => return Floor.ofFile (← fileBytes name)

/-- Loads the program and prepares the computer, or explains why that is impossible. -/
def prepare (o : Options) : IO (Except String Computer) := do
  let name := o.program.getD ""
  let file ← fileBytes name
  report o (loadRecords file)
  match Computer.loadFile file {} with
  | .error e _ => return .error (name ++ ": " ++ e.message)
  | .ok _ c =>
    match ← floor o with
    | .error e => return .error ("Error while loading the floor: " ++ e.message)
    | .ok floor =>
      match Computer.prepare floor o.items c with
      | .error e _ => return .error e.message
      | .ok _ c => return .ok c

/-- Prints the listing of a program. -/
def list (o : Options) : IO UInt32 := do
  let file ← match o.program with
    | some name => fileBytes name
    | none => some <$> inputBytes
  report o (loadRecords file)
  match Computer.loadFile file {} with
  | .error e _ =>
    IO.eprintln e.message
    return badInput
  | .ok _ c =>
    printListing o c.programLines
    return 0

/-- Runs a program and prints its outbox. -/
def run (o : Options) : IO UInt32 := do
  match ← prepare o with
  | .error message =>
    IO.eprintln message
    return badInput
  | .ok c =>
    if !o.quiet then
      printLines [o.program.getD "", ""]
      printListing o c.programLines
      printLines ["", "Inbox:", c.inboxLine]
    let observed := c.observe .unattended (fun log e => log ++ e.records.toArray) #[] fuel ()
    match observed with
    | none => return runFailed
    | some (log, outcome) =>
      report o (log.toList ++ [outcome.record])
      if !o.quiet then IO.println "Outbox:"
      IO.println outcome.computer.outboxLine
      match outcome.result with
      | .error e =>
        IO.eprintln (outcome.computer.failureLine e)
        return runFailed
      | .ok () =>
        if !o.quiet then printLines ["", outcome.computer.totalsLine]
        return 0

/-- Shows what is new on a transcript. -/
def showEntries (o : Options) (input : Debugger.Input) (entries : List Debugger.Entry) :
    IO Unit := do
  let output ← IO.getStdout
  output.putStr (Debugger.editorScreen input (!o.plain) entries)
  output.flush

/-- The next line of standard input, or nothing at its end. -/
def nextLine : IO (Option String) := do
  let line ← (← IO.getStdin).getLine
  return (Debugger.Input.ofBytes line.toUTF8).lines.head?

/-- Lets the session run with the lines typed so far, and goes on asking for more. -/
partial def converse (o : Options) (d : Debugger) (script : List String) (shown : Nat) :
    IO (Except Cpu.Error Unit × Debugger) := do
  let input : Debugger.Input := ⟨script, false⟩
  match (d.setConsole input.editorConsole).run fuel with
  | none => return (.ok (), d)
  | some (result, after) =>
    let entries := after.session.console.transcript.toList
    showEntries o input (entries.drop shown)
    if entries.getLast? = some (.read none) then
      match ← nextLine with
      | some line => converse o d (script ++ [line]) entries.length
      | none => return (result, after)
    else return (result, after)

/-- Keeps the lines typed in the history file. -/
def keepHistory (o : Options) (d : Debugger) : IO Unit := do
  let before ← fileBytes o.history
  match Debugger.History.ofFile before with
  | .error e => IO.println (Debugger.historyReadMessage e)
  | .ok h =>
    let h := Debugger.recorded h d.session.console.transcript.toList
    if h.changed then
      try
        IO.FS.writeFile o.history h.text
      catch _ =>
        IO.println (Debugger.historyWriteMessage .missing)

/-- Debugs a program. -/
def debug (o : Options) : IO UInt32 := do
  match ← prepare o with
  | .error message =>
    IO.eprintln message
    return badInput
  | .ok computer =>
    let (result, d) ← converse o { computer } [] 0
    if !o.plain then keepHistory o d
    match result with
    | .error e =>
      IO.eprintln (d.computer.failureLine e)
      return runFailed
    | .ok () => return 0

end Mailroom.Main

def main (words : List String) : IO UInt32 := do
  match Mailroom.CommandLine.read words with
  | .error mistake =>
    IO.eprintln mistake.message
    return Mailroom.Main.badInput
  | .ok .help =>
    Mailroom.Main.printLines Mailroom.CommandLine.usage
    return 0
  | .ok (.perform o) =>
    match o.task with
    | .list => Mailroom.Main.list o
    | .run => Mailroom.Main.run o
    | .debug => Mailroom.Main.debug o
