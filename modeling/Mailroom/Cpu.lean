/-
The machine itself: registers, boxes and memory, and the execution of one instruction.

An instruction is executed on the running state, one change after the other, and a
failing one stops where the failure is found.  That a failure leaves no trace is
therefore not built in: it holds because each instruction makes its first change only
when nothing can fail any more.

Arithmetic is on 64-bit integers and never wraps.  A result that does not fit is a
failure of its own.
-/
import Mailroom.JumpTable
import Mailroom.Log
import Mailroom.Memory

namespace Mailroom

/-- Registers, boxes and memory; the oldest value of the outbox comes first. -/
structure Cpu where
  /-- The step to execute next, `none` when no program is running. -/
  pc : Option Nat := none
  accumulator : Option Value := none
  inbox : List Value := []
  outbox : Array Value := #[]
  /--
  Instructions completed since the last reset.  The machine counts them in a word of 64
  bits, and a natural number stands for that word in every run of fewer than `2 ^ 64` ticks.
  -/
  steps : Nat := 0
  memory : Memory := {}
  halted : Bool := false
  deriving DecidableEq

namespace Cpu

instance : Inhabited Cpu := ⟨{}⟩

/-! ### Failures -/

/-- What can go wrong when an instruction is executed. -/
inductive Error where
  | memory (cause : Memory.Error)
  | inboxEmpty
  | accumulatorEmpty
  | incompatibleTypes (op : Opcode) (letter : Char)
  | noSuchJumpDestination (destination : Destination)
  | overflow (op : Opcode)
  | halted
  deriving DecidableEq

/-- The sentence shown to the user. -/
def Error.message : Error → String
  | memory cause => cause.message
  | inboxEmpty => "the inbox is empty"
  | accumulatorEmpty => "the accumulator is empty"
  | incompatibleTypes op letter =>
    op.symbol ++ " can't work with the letter '" ++ letter.toString ++ "'"
  | noSuchJumpDestination destination =>
    "jump destination " ++ destination.text ++ " is not part of the program"
  | overflow op => "integer overflow in " ++ op.symbol
  | halted => "the program is not running"

/-! ### Power -/

/-- Ready to run from step 0.  Inbox and memory are left alone. -/
def reset (cpu : Cpu) : Cpu :=
  { cpu with pc := some 0, steps := 0, accumulator := none, outbox := #[], halted := false }

/-- Ready to run from step 0 on another inbox and memory. -/
def restart (cpu : Cpu) (inbox : List Value) (memory : Memory) : Cpu :=
  { cpu.reset with inbox, memory }

/-- The step and the instruction that come next, if the program is running. -/
def next? (cpu : Cpu) (program : Program) : Option (Nat × Instruction) :=
  if cpu.halted then none
  else do
    let pc ← cpu.pc
    let instruction ← program[pc]?
    some (pc, instruction)

/-! ### Parts of an instruction -/

/-- A change of the machine that may fail midway. -/
abbrev Action := EStateM Error Cpu

/-- The accumulator, which must not be empty. -/
def accumulated : Action Value := do
  match (← get).accumulator with
  | some v => return v
  | none => throw .accumulatorEmpty

/-- Fills the accumulator. -/
def accumulate (v : Value) : Action Unit :=
  modify fun cpu => { cpu with accumulator := some v }

/-- The value on a tile. -/
def load (t : Tile) : Action Value := do
  liftExcept (((← get).memory.get t).mapError Error.memory)

/-- Puts a value on a tile. -/
def store (t : Tile) (v : Value) : Action Unit := do
  let memory ← liftExcept (((← get).memory.set t v).mapError Error.memory)
  modify fun cpu => { cpu with memory }

/-- Takes the next value from the inbox to the accumulator. -/
def moveFromInbox : Action Unit := do
  match (← get).inbox with
  | [] => throw .inboxEmpty
  | v :: rest =>
    modify fun cpu => { cpu with inbox := rest }
    accumulate v

/-- Takes the accumulator to the outbox, which leaves it empty. -/
def moveToOutbox : Action Unit := do
  let v ← accumulated
  modify fun cpu => { cpu with outbox := cpu.outbox.push v }
  modify fun cpu => { cpu with accumulator := none }

/-- An integer result, if it is a 64-bit one. -/
def fit (op : Opcode) (n : Int) : Except Error Value :=
  match Numeral.word? n with
  | some w => .ok (.int w)
  | none => .error (.overflow op)

/-- The sum of two integers; the first letter met is refused. -/
def sum (op : Opcode) : Value → Value → Except Error Value
  | .int a, .int b => fit op (a.toInt + b.toInt)
  | .letter c, _ => .error (.incompatibleTypes op c)
  | .int _, .letter c => .error (.incompatibleTypes op c)

/-- The difference of two integers, or of the code points of two letters. -/
def difference (op : Opcode) : Value → Value → Except Error Value
  | .int a, .int b => fit op (a.toInt - b.toInt)
  | .letter a, .letter b => fit op ((a.toNat : Int) - b.toNat)
  | .letter c, .int _ => .error (.incompatibleTypes op c)
  | .int _, .letter c => .error (.incompatibleTypes op c)

/-- Adds to the integer on a tile and keeps the result in the accumulator too. -/
def bump (op : Opcode) (t : Tile) (change : Int64) : Action Unit := do
  let v ← liftExcept (sum op (← load t) (.int change))
  store t v
  accumulate v

/-- The instructions that work on a tile. -/
def work (action : TileAction) (t : Tile) : Action Unit := do
  let op := Opcode.onTile action
  match action with
  | .copyFrom => accumulate (← load t)
  | .copyTo => store t (← accumulated)
  | .add =>
    let v ← accumulated
    accumulate (← liftExcept (sum op v (← load t)))
  | .subtract =>
    let v ← accumulated
    accumulate (← liftExcept (difference op v (← load t)))
  | .bumpUp => bump op t 1
  | .bumpDown => bump op t (-1)

/-- Does a value satisfy a condition?  A letter is not zero, but it has no sign to ask for. -/
def satisfies : Condition → Value → Except Error Bool
  | .always, _ => .ok true
  | .ifZero, v => .ok (v == .int 0)
  | .ifNegative, .int n => .ok (n.toInt < 0)
  | .ifNegative, .letter c => .error (.incompatibleTypes (.jump .ifNegative) c)

/-- Is a jump taken?  A condition needs a full accumulator. -/
def isTaken : Condition → Action Bool
  | .always => return true
  | condition => do liftExcept (satisfies condition (← accumulated))

end Cpu

/-- The step that a jump lands on, which must be one of the program's. -/
def Destination.resolve (destination : Destination) (jumps : JumpTable) (size : Nat) :
    Except Cpu.Error Nat :=
  let step? := match destination with
    | .step s => some s
    | .label name => jumps.get? name
  match step? with
  | some s => if s < size then .ok s else .error (.noSuchJumpDestination destination)
  | none => .error (.noSuchJumpDestination destination)

namespace Cpu

/-! ### Instructions -/

/-- Carries out the instruction found at step `pc` and answers the step that follows. -/
def execute (i : Instruction) (pc size : Nat) (jumps : JumpTable) : Action Nat := do
  match i with
  | .noOp => return pc + 1
  | .moveFromInbox =>
    moveFromInbox
    return pc + 1
  | .moveToOutbox =>
    moveToOutbox
    return pc + 1
  | .onTile action t =>
    work action t
    return pc + 1
  | .jump condition destination =>
    if ← isTaken condition then liftExcept (destination.resolve jumps size)
    else return pc + 1

/-- Executes the next instruction; only one that completes is counted. -/
def tick (program : Program) (jumps : JumpTable) : Action Unit := do
  match (← get).next? program with
  | none => throw .halted
  | some (pc, i) =>
    let step ← execute i pc program.size jumps
    modify fun cpu => { cpu with pc := some step, steps := cpu.steps + 1 }

/-- The record that announces the instruction about to be executed. -/
def announcement (cpu : Cpu) (program : Program) : List Log.Record :=
  match cpu.next? program with
  | some (pc, i) => [⟨.trace, Numeral.ofStep pc ++ ": " ++ i.text⟩]
  | none => []

end Cpu

end Mailroom
