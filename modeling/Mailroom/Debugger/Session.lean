/-
A session: what the debugger remembers, and what it does at a stop.

At each stop the session shows where the program is and opens a menu.  The menu reads
lines and carries out their commands until one of them resumes or quits the run, or no
line is left.  A blank line repeats the last command that was understood.

Breakpoints stay until they are toggled.  Next to them there are temporary ones, by which
single-stepping gets hold of the run again: a step arms all steps that can come next, and
any stop forgets them.  Restarting goes back to the inbox and the memory that the run
began with.
-/
import Mailroom.Computer.Listing
import Mailroom.Computer.Run
import Mailroom.Debugger.Command
import Mailroom.Debugger.Console

namespace Mailroom.Debugger

/-- What is remembered between commands, and between runs. -/
structure Session where
  console : Console := {}
  breakpoints : Std.ExtTreeSet Nat := ∅
  /-- Forgotten at the next stop, whatever the reason for it. -/
  temporary : Std.ExtTreeSet Nat := ∅
  /-- The inbox when the run began. -/
  inbox : List Value := []
  /-- The memory when the run began. -/
  memory : Memory := {}
  lastCommand : Option Command := none

/-- What a line typed into the menu leads to. -/
structure Reply where
  /-- What is shown. -/
  lines : List String := []
  computer : Computer
  session : Session
  /-- How the run goes on; the menu stays open if nothing is said. -/
  resume : Option Resume := none
  notes : List Log.Record := []

/-- The explanation of the commands. -/
def help : List String :=
  ["a          show the accumulator",
   "b [step]   toggle a breakpoint at a step or label, list them without argument",
   "c          continue until the next breakpoint",
   "e          show inbox, accumulator and outbox",
   "i          show the inbox",
   "l [n]      list n instructions from pc, or the whole program",
   "m [tile]   show one tile, or all of memory",
   "o          show the outbox",
   "q          quit",
   "r          restart with the initial inbox and memory",
   "s          execute one instruction",
   "?          this help",
   "An empty line repeats the previous command."]

/-! ### Views of the machine -/

/-- A tile with its labels and its value. -/
def tileLine (m : Memory) (index : Nat) : String :=
  let number := Numeral.padded ' ' 3 index
  let value := Value.orEmpty m.tiles[index]?
  match m.labelsOf index with
  | [] => number ++ ": " ++ value
  | labels => number ++ " (" ++ ", ".intercalate labels ++ "): " ++ value

/-- The tiles that hold a value or carry a label, in ascending order. -/
def knownTiles (m : Memory) : List Nat :=
  (Std.ExtTreeSet.ofList (m.tiles.keys ++ m.labels.values)).toList

/-- All of memory. -/
def memoryLines (m : Memory) : List String :=
  match knownTiles m with
  | [] => ["Memory is empty"]
  | indexes => indexes.map (tileLine m)

/-- The tile that a key names, or why it names none. -/
def keyLine (m : Memory) (key : String) : String :=
  match m.resolve (.ofString key) with
  | .ok index => tileLine m index
  | .error e => e.message

def inboxText (c : Computer) : String :=
  "inbox: " ++ Value.listText c.cpu.inbox

def outboxText (c : Computer) : String :=
  "outbox: " ++ Value.listText c.cpu.outbox.toList

def accumulatorText (c : Computer) : String :=
  "accumulator: " ++ Value.orEmpty c.cpu.accumulator

namespace Session

instance : Inhabited Session := ⟨{}⟩

/-- Some steps of the program. -/
def listLines (s : Session) (c : Computer) (start stop : Nat) : List String :=
  (c.listing start stop s.breakpoints).map (·.text)

/-- The instructions around the current step. -/
def contextLines (s : Session) (c : Computer) : List String :=
  let pc := c.cpu.pc.getD 0
  s.listLines c (pc - 3) (pc + 4)

/-- The breakpoints in ascending order. -/
def breakpointsLine (s : Session) : String :=
  match s.breakpoints.toList with
  | [] => "No breakpoints"
  | steps => "Breakpoints: " ++ ", ".intercalate (steps.map Numeral.ofStep)

/-! ### Breakpoints -/

/-- Sets a breakpoint or removes it, and answers whether it is set now. -/
def toggle (s : Session) (step : Nat) : Bool × Session :=
  if s.breakpoints.contains step then
    (false, { s with breakpoints := s.breakpoints.erase step })
  else (true, { s with breakpoints := s.breakpoints.insert step })

/-- Forgets what belongs to the program: breakpoints and the command to repeat. -/
def forget (s : Session) : Session :=
  { s with breakpoints := ∅, temporary := ∅, lastCommand := none }

/-- Stops again at a step, once. -/
def arm (s : Session) (step : Nat) : Session :=
  { s with temporary := s.temporary.insert step }

/-- Arms the step that a jump can go to, if it can go anywhere. -/
def armDestination (s : Session) (c : Computer) (destination : Destination) : Session :=
  match destination.resolve c.jumps c.program.size with
  | .ok step => s.arm step
  | .error _ => s

/-- Arms every step that can follow the current one. -/
def armNext (s : Session) (c : Computer) : Session :=
  match c.cpu.pc with
  | none => s
  | some pc =>
    match c.currentInstruction? with
    | some (.jump .always destination) => s.armDestination c destination
    | some (.jump _ destination) => (s.armDestination c destination).arm (pc + 1)
    | _ => s.arm (pc + 1)

/-! ### Commands -/

/-- Toggles the breakpoint at the step that a word names. -/
def toggleAt (s : Session) (c : Computer) (target : String) : Reply :=
  match (Destination.ofString target).resolve c.jumps c.program.size with
  | .ok step =>
    match s.toggle step with
    | (true, s) =>
      { lines := ["Breakpoint set at step " ++ Numeral.ofStep step], computer := c, session := s }
    | (false, s) =>
      { lines := ["Breakpoint removed from step " ++ Numeral.ofStep step], computer := c,
        session := s }
  | .error e => { lines := [e.message], computer := c, session := s }

/-- Goes back to where the run began; the breakpoints stay. -/
def restart (s : Session) (c : Computer) : Reply :=
  let c := { c with cpu := c.cpu.restart s.inbox s.memory }
  { lines := "Restarted" :: s.contextLines c, computer := c, session := s
    notes := [⟨.info, "restarting"⟩] }

/-- Resumes for one instruction, unless the program is at its end. -/
def step (s : Session) (c : Computer) : Reply :=
  if c.cpu.halted then
    { lines := ["Program finished, r restarts it"], computer := c, session := s }
  else { computer := c, session := s.armNext c, resume := some .continue }

/-- Carries out a command. -/
def execute (s : Session) (c : Computer) : Command → Reply
  | .accumulator => { lines := [accumulatorText c], computer := c, session := s }
  | .breakpoint none => { lines := [s.breakpointsLine], computer := c, session := s }
  | .breakpoint (some target) => s.toggleAt c target
  | .continue => { computer := c, session := s, resume := some .continue }
  | .everything =>
    { lines := [inboxText c ++ "; " ++ accumulatorText c ++ "; " ++ outboxText c],
      computer := c, session := s }
  | .inbox => { lines := [inboxText c], computer := c, session := s }
  | .list count =>
    let lines := match count, c.cpu.pc with
      | some n, some pc => s.listLines c pc (pc + n)
      | _, _ => s.listLines c 0 c.program.size
    { lines, computer := c, session := s }
  | .memory none => { lines := memoryLines c.cpu.memory, computer := c, session := s }
  | .memory (some key) => { lines := [keyLine c.cpu.memory key], computer := c, session := s }
  | .outbox => { lines := [outboxText c], computer := c, session := s }
  | .quit => { computer := c, session := s, resume := some .quit }
  | .restart => s.restart c
  | .step => s.step c
  | .help => { lines := help, computer := c, session := s }

/-- The command that a line means: its own, or for a blank line the last one again. -/
def commandOf (s : Session) (line : String) : Except Command.Error (Option Command) :=
  if Text.isBlankLine line then .ok s.lastCommand
  else (Command.read line).map some

/-- Does what a line asks for. -/
def respond (s : Session) (c : Computer) (line : String) : Reply :=
  match s.commandOf line with
  | .ok (some command) => { s with lastCommand := some command }.execute c command
  | .ok none => { computer := c, session := s }
  | .error e => { lines := [e.message], computer := c, session := s }

/-! ### Stops -/

/-- Shows some lines. -/
def write (s : Session) (lines : List String) : Session :=
  { s with console := s.console.write lines }

/-- Takes note of a line having been read, and of the lines that are left. -/
def read (s : Session) (line : Option String) (rest : List String) : Session :=
  { s with console :=
    { s.console with script := rest, transcript := s.console.transcript.push (.read line) } }

/-- Reads lines until one of them ends the stop; running out of lines quits. -/
def menu (c : Computer) (s : Session) (notes : List Log.Record) :
    List String → Reaction Session
  | [] =>
    { answer := .ok .quit, computer := c, state := s.read none []
      notes := notes ++ s.console.lastNotes }
  | line :: rest =>
    let r := (s.read (some line) rest).respond c line
    let s := r.session.write r.lines
    let notes := notes ++ r.notes
    match r.resume with
    | some resume => { answer := .ok resume, computer := r.computer, state := s, notes }
    | none => menu r.computer s notes rest

/-- What is shown when the run stops. -/
def stopLines (s : Session) (c : Computer) (why : Stop) : List String :=
  let first := match why with
    | .break => ["Stopped at step " ++ Numeral.ofStep (c.cpu.pc.getD 0)]
    | .finished =>
      ["Program finished after " ++ Numeral.ofNat c.cpu.steps ++ " steps", outboxText c]
  first ++ s.contextLines c

/-- What is reported when the run stops. -/
def stopNotes (c : Computer) : Stop → List Log.Record
  | .break =>
    let step := match c.cpu.pc with
      | some pc => "Some(" ++ Numeral.ofNat pc ++ ")"
      | none => "None"
    [⟨.debug, "stopped at " ++ step⟩]
  | .finished => []

/-- Forgets the temporary breakpoints, shows where the program is and opens the menu. -/
def onStop (why : Stop) (c : Computer) (s : Session) : Reaction Session :=
  let s := { s with temporary := ∅ }
  menu c (s.write (s.stopLines c why)) (stopNotes c why) s.console.script

/-- Stops at breakpoints of both kinds. -/
def shouldStop (c : Computer) (s : Session) : Bool × Session :=
  let stop := match c.cpu.pc with
    | some pc => s.breakpoints.contains pc || s.temporary.contains pc
    | none => false
  (stop, s)

/-- The session as the hook of a run. -/
def hook : Hook Session where
  shouldStop := shouldStop
  onStop := onStop

end Session

end Mailroom.Debugger
