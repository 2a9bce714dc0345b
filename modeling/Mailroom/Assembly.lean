/-
Assembling: from program text to a program and its jump table.

A line is empty, or declares a label, or holds an instruction, or is at fault, and which
of these it is depends on nothing but the line.  The lines are then taken in order into
a draft.  A label names the step of the next instruction, so its step is the number of
instructions the draft holds; an instruction is added at the end.  The first line at
fault stops the assembly.

Declaring a label twice is no fault.  The draft notes it, and keeps the note also when
a later line is at fault.
-/
import Mailroom.Assembly.Line
import Mailroom.JumpTable
import Mailroom.Log
import Mailroom.Source
import Mailroom.Text

namespace Mailroom.Assembly

/-! ### Faults -/

/-- What can be wrong with a line. -/
inductive FaultKind where
  | unknownInstruction
  | argumentRequired
  | unexpectedArgument
  | syntaxError
  deriving DecidableEq

/-- A line that is wrong: its number counted from one, and its cleaned text. -/
structure Fault where
  kind : FaultKind
  line : Nat
  text : String
  deriving DecidableEq

/-- The sentence shown to the user. -/
def Fault.message (f : Fault) : String :=
  let complaint := match f.kind with
    | .unknownInstruction => "Unknown instruction"
    | .argumentRequired => "Instruction requires argument"
    | .unexpectedArgument => "Unexpected argument"
    | .syntaxError => "Syntax error"
  complaint ++ ", line " ++ Numeral.ofNat f.line ++ ": \"" ++ f.text ++ "\""

/-! ### Statements

What a line contributes depends on the line alone.
-/

/-- What a line contributes to a program. -/
inductive Statement where
  /-- Names the step of the next instruction. -/
  | label (name : String)
  | instruction (i : Instruction)
  deriving DecidableEq

/-- Joins an opcode and its argument; only tiles may be indirect. -/
def build : Opcode → Option Argument → Except FaultKind Instruction
  | .noOp, none => .ok .noOp
  | .moveFromInbox, none => .ok .moveFromInbox
  | .moveToOutbox, none => .ok .moveToOutbox
  | .onTile action, some a => .ok (.onTile action ⟨.ofString a.text, a.indirect⟩)
  | .jump condition, some a =>
    if a.indirect then .error .syntaxError
    else .ok (.jump condition (.ofString a.text))
  | .noOp, some _ | .moveFromInbox, some _ | .moveToOutbox, some _ =>
    .error .unexpectedArgument
  | .onTile _, none | .jump _, none => .error .argumentRequired

/-- The instruction that a symbol and an argument spell. -/
def instruction (symbol : String) (argument : Option Argument) :
    Except FaultKind Instruction :=
  match Opcode.ofSymbol? symbol with
  | some op => build op argument
  | none => .error .unknownInstruction

/-- What a cleaned line contributes, if anything, or what is wrong with it. -/
def statement? (cs : List Char) : Except FaultKind (Option Statement) :=
  if cs.isEmpty then .ok none
  else match Line.read? cs with
    | none => .error .syntaxError
    | some (.label name) => .ok (some (.label name))
    | some (.command symbol argument) =>
      (instruction symbol argument).map fun i => some (.instruction i)

/-! ### Drafts -/

/-- A label that was declared once more, and the step it named before. -/
structure Redefinition where
  line : Nat
  label : String
  oldStep : Nat
  deriving DecidableEq

/-- What has been assembled so far. -/
structure Draft where
  program : Program := #[]
  jumps : JumpTable := {}
  redefinitions : Array Redefinition := #[]
  deriving DecidableEq

namespace Draft

/-- Names the next instruction. -/
def declare (d : Draft) (line : Nat) (label : String) : Draft :=
  match d.jumps.insert label d.program.size with
  | (some old, jumps) =>
    { d with jumps, redefinitions := d.redefinitions.push ⟨line, label, old⟩ }
  | (none, jumps) => { d with jumps }

/-- Takes in what a line contributes. -/
def take (d : Draft) (line : Nat) : Option Statement → Draft
  | none => d
  | some (.label name) => d.declare line name
  | some (.instruction i) => { d with program := d.program.push i }

end Draft

/-- Takes in the lines in order, the first of them having the given number. -/
def readLines (number : Nat) : List (List Char) → EStateM Fault Draft Unit
  | [] => pure ()
  | raw :: rest => do
    let cs := Line.clean raw
    match statement? cs with
    | .ok s => modify (·.take number s)
    | .error kind => throw ⟨kind, number, String.ofList cs⟩
    readLines (number + 1) rest

/-- Reads a whole text into an empty draft, as far as it can be read. -/
def draft (source : String) : EStateM.Result Fault Draft Unit :=
  (readLines 1 (Text.lines '\n' source.toList)).run {}

end Assembly

open Assembly

/-- A program with its jump table. -/
structure Assembly where
  program : Program
  jumps : JumpTable
  deriving DecidableEq

/-- The program that a text spells, or the first fault in it. -/
def assemble (source : String) : Except Fault Assembly :=
  match draft source with
  | .ok _ d => .ok ⟨d.program, d.jumps⟩
  | .error fault _ => .error fault

/-! ### Files -/

namespace Assembly

/-- Why a file gives no program. -/
inductive FileError where
  | unreadable (cause : Source.Error)
  | fault (fault : Fault)
  deriving DecidableEq

/-- The sentence shown to the user. -/
def FileError.message : FileError → String
  | unreadable cause => cause.message
  | fault f => f.message

end Assembly

/-- The program in a file. -/
def assembleFile (file : Option ByteArray) : Except FileError Assembly :=
  match Source.read file with
  | .error cause => .error (.unreadable cause)
  | .ok source =>
    match assemble source with
    | .ok assembly => .ok assembly
    | .error f => .error (.fault f)

/-! ### What is reported -/

namespace Assembly

/-- The warning about a label that was declared once more. -/
def Redefinition.record (r : Redefinition) : Log.Record where
  level := .warn
  text := "line " ++ Numeral.ofNat r.line ++ ": label " ++ r.label ++ " redefined (was step "
    ++ Numeral.ofNat r.oldStep ++ ")"

/-- Warnings come also from a text that turns out to be faulty, the summary does not. -/
def records (source : String) : List Log.Record :=
  match draft source with
  | .ok _ d =>
    d.redefinitions.toList.map (·.record) ++
      [⟨.debug, "assembled " ++ Numeral.ofNat d.program.size ++ " instructions, "
        ++ Numeral.ofNat d.jumps.size ++ " labels"⟩]
  | .error _ d => d.redefinitions.toList.map (·.record)

end Assembly

end Mailroom
