/-
Preparing a computer for a puzzle.

The memory is that of the floor, and the inbox that of the floor with further values
behind it that are given as texts.  The memory is exchanged first.
-/
import Mailroom.Computer
import Mailroom.Floor

namespace Mailroom

namespace Floor

/-- Why a file gives no floor. -/
inductive FileError where
  | unreadable (cause : Source.Error)
  | json (cause : Json.Error)
  deriving DecidableEq

/-- The sentence shown to the user. -/
def FileError.message : FileError → String
  | unreadable cause => cause.message
  | json cause => cause.message?.getD "the file does not describe a floor"

/-- The floor that a file describes. -/
def ofFile (file : Option ByteArray) : Except FileError Floor :=
  match Source.read file with
  | .error cause => .error (.unreadable cause)
  | .ok s =>
    match Floor.read s with
    | .ok floor => .ok floor
    | .error cause => .error (.json cause)

end Floor

namespace Computer

/-- Why a computer cannot be prepared. -/
inductive SetupError where
  | layout (cause : Memory.Error)
  | item (cause : Value.Malformed)
  deriving DecidableEq

/-- The sentence shown to the user. -/
def SetupError.message : SetupError → String
  | layout cause => cause.message
  | item cause => cause.message

/-- The values that the texts spell, or the first text that spells none. -/
def readItems : List String → Except Value.Malformed (List Value)
  | [] => .ok []
  | s :: rest => do
    match Value.read? s with
    | some v => return v :: (← readItems rest)
    | none => .error ⟨s⟩

/-- Lays out the floor and fills the inbox. -/
def prepare (floor : Floor) (extra : List String) : EStateM SetupError Computer Unit := do
  let memory ← liftExcept (floor.memory.mapError SetupError.layout)
  modify (·.setMemory memory)
  let items ← liftExcept ((readItems extra).mapError SetupError.item)
  modify (·.setInbox (floor.inbox ++ items))

end Computer

end Mailroom
