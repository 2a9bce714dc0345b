/-
The debugger: a computer under the control of a session.

A run stops before step 0, before every breakpoint and at the end of the program.
Loading another program forgets the breakpoints, but only if the program can be loaded.
-/
import Mailroom.Debugger.Session

namespace Mailroom

/-- A computer with the session that controls its runs. -/
structure Debugger where
  computer : Computer := {}
  session : Debugger.Session := {}

namespace Debugger

instance : Inhabited Debugger := ⟨{}⟩

/-- Exchanges the program and forgets what belonged to the old one. -/
def load (d : Debugger) (assembly : Assembly) : Debugger where
  computer := d.computer.load assembly
  session := d.session.forget

/-- Assembles a text and loads what it spells. -/
def loadSource (source : String) : EStateM Assembly.Fault Debugger Unit := do
  let assembly ← liftExcept (assemble source)
  modify (·.load assembly)

/-- Assembles a file and loads what it spells. -/
def loadFile (file : Option ByteArray) : EStateM Assembly.FileError Debugger Unit := do
  let assembly ← liftExcept (assembleFile file)
  modify (·.load assembly)

/-- The steps with a breakpoint. -/
def breakpoints (d : Debugger) : Std.ExtTreeSet Nat :=
  d.session.breakpoints

/-- Sets a breakpoint or removes it, and answers whether it is set now. -/
def toggleBreakpoint (d : Debugger) (step : Nat) : Bool × Debugger :=
  let (isSet, session) := d.session.toggle step
  (isSet, { d with session })

/-- Talks to another console from now on. -/
def setConsole (d : Debugger) (console : Console) : Debugger :=
  { d with session := { d.session with console } }

/-- The session at the beginning of a run: it keeps what `r` restores and stops at step 0. -/
def openSession (d : Debugger) : Session :=
  { d.session with
    inbox := d.computer.cpu.inbox
    memory := d.computer.cpu.memory }.arm 0

/-- Runs the program, with an observer that folds the events of the run. -/
def observe {α : Type} (observer : α → Event → α) (a : α) (fuel : Nat) (d : Debugger) :
    Option (α × Outcome Session) :=
  d.computer.observe Session.hook observer a fuel d.openSession

/-- Runs the program. -/
def run (fuel : Nat) (d : Debugger) : Option (Except Cpu.Error Unit × Debugger) :=
  (d.observe (fun _ _ => ()) () fuel).map fun (_, o) => (o.result, ⟨o.computer, o.state⟩)

end Debugger

end Mailroom
