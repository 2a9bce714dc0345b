/-
A computer: the machine with a program loaded into it.

Loading takes effect only if the whole text assembles, and it changes the program and
the jump table but nothing of the machine except that no program is running any more.
-/
import Mailroom.Assembly
import Mailroom.Cpu

namespace Mailroom

/-- A machine, its program and the jump table that jumps look their labels up in. -/
structure Computer where
  cpu : Cpu := {}
  program : Program := #[]
  jumps : JumpTable := {}
  deriving DecidableEq

namespace Computer

instance : Inhabited Computer := ⟨{}⟩

/-- Exchanges program and jump table. -/
def load (c : Computer) (assembly : Assembly) : Computer :=
  { cpu := { c.cpu with pc := none }, program := assembly.program, jumps := assembly.jumps }

/-- Assembles a text and loads what it spells. -/
def loadSource (source : String) : EStateM Assembly.Fault Computer Unit := do
  let assembly ← liftExcept (assemble source)
  modify (·.load assembly)

/-- Assembles a file and loads what it spells. -/
def loadFile (file : Option ByteArray) : EStateM Assembly.FileError Computer Unit := do
  let assembly ← liftExcept (assembleFile file)
  modify (·.load assembly)

/-- Fills the inbox. -/
def setInbox (c : Computer) (inbox : List Value) : Computer :=
  { c with cpu := { c.cpu with inbox } }

/-- Exchanges the memory. -/
def setMemory (c : Computer) (memory : Memory) : Computer :=
  { c with cpu := { c.cpu with memory } }

/-- Moves to another step, or to none. -/
def setPc (c : Computer) (pc : Option Nat) : Computer :=
  { c with cpu := { c.cpu with pc } }

/-- Stops the machine or lets it go on. -/
def setHalted (c : Computer) (halted : Bool) : Computer :=
  { c with cpu := { c.cpu with halted } }

/-- Declares a label, or sends it to another step. -/
def redirect (c : Computer) (label : String) (step : Nat) : Computer :=
  { c with jumps := (c.jumps.insert label step).2 }

/-- The instruction at the current step. -/
def currentInstruction? (c : Computer) : Option Instruction := do
  c.program[← c.cpu.pc]?

/-- The program runs as long as the machine is not halted and its step is in the program. -/
def isRunning (c : Computer) : Bool :=
  (c.cpu.next? c.program).isSome

/-- The record of a program being loaded. -/
def loadRecord (program : Program) : Log.Record where
  level := .debug
  text := "loading " ++ Numeral.ofNat program.size ++ " instructions"

/-- All that is reported when a text is assembled and loaded. -/
def loadRecords (source : String) : List Log.Record :=
  Assembly.records source ++
    match assemble source with
    | .ok assembly => [loadRecord assembly.program]
    | .error _ => []

end Computer

end Mailroom
