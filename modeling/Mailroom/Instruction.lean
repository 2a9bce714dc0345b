/-
Instructions and their operands.

An instruction is an opcode with the operand that the opcode asks for: nothing, a tile,
or the step that a jump goes to.  Opcodes are grouped by operand, so that an
instruction with the wrong kind of operand, or with none, cannot be written down.

Operands keep the name they were given.  A tile named by a label and a jump to a label
are looked up only when the instruction runs, in the labels of the memory and in the
jump table of that moment.
-/
import Mailroom.Numeral

namespace Mailroom

/-! ### Operands -/

/-- A tile is named by its number or by a label. -/
inductive TileRef where
  | index (i : Nat)
  | label (name : String)
  deriving DecidableEq

/-- Text that is a numeral names a tile by number. -/
def TileRef.ofString (s : String) : TileRef :=
  match Numeral.unsigned? s with
  | some i => .index i
  | none => .label s

def TileRef.text : TileRef → String
  | .index i => Numeral.ofNat i
  | .label name => name

/-- An indirect operand means the tile whose number lies on the tile that is named. -/
structure Tile where
  key : TileRef
  indirect : Bool := false
  deriving DecidableEq

/-- Brackets mark an indirect operand. -/
def Tile.text (t : Tile) : String :=
  if t.indirect then "[" ++ t.key.text ++ "]" else t.key.text

/-- A jump goes to a step given by number or by label. -/
inductive Destination where
  | step (s : Nat)
  | label (name : String)
  deriving DecidableEq

/-- Text that is a numeral names a step by number. -/
def Destination.ofString (s : String) : Destination :=
  match Numeral.unsigned? s with
  | some n => .step n
  | none => .label s

def Destination.text : Destination → String
  | .step s => Numeral.ofStep s
  | .label name => name

/-! ### Opcodes -/

/-- What an instruction with a tile operand does with the tile. -/
inductive TileAction where
  | copyFrom
  | copyTo
  | add
  | subtract
  | bumpUp
  | bumpDown
  deriving DecidableEq

/-- What the accumulator must hold for a jump to be taken. -/
inductive Condition where
  | always
  | ifZero
  | ifNegative
  deriving DecidableEq

/-- The twelve operations. -/
inductive Opcode where
  | noOp
  | moveFromInbox
  | moveToOutbox
  | onTile (action : TileAction)
  | jump (condition : Condition)
  deriving DecidableEq

namespace Opcode

/-- Every opcode, in the order of the instruction table. -/
def all : List Opcode :=
  [noOp, moveFromInbox, moveToOutbox,
   onTile .copyFrom, onTile .copyTo, onTile .add, onTile .subtract,
   onTile .bumpUp, onTile .bumpDown,
   jump .always, jump .ifZero, jump .ifNegative]

/-- The word that stands for the opcode in program text. -/
def symbol : Opcode → String
  | noOp => "no_op"
  | moveFromInbox => "move_from_inbox"
  | moveToOutbox => "move_to_outbox"
  | onTile .copyFrom => "copy_from"
  | onTile .copyTo => "copy_to"
  | onTile .add => "add"
  | onTile .subtract => "subtract"
  | onTile .bumpUp => "bump_up"
  | onTile .bumpDown => "bump_down"
  | jump .always => "jump_to"
  | jump .ifZero => "jump_if_zero_to"
  | jump .ifNegative => "jump_if_negative_to"

def takesArgument : Opcode → Bool
  | noOp | moveFromInbox | moveToOutbox => false
  | onTile _ | jump _ => true

def isJump : Opcode → Bool
  | jump _ => true
  | _ => false

/--
The opcode of a symbol in any mixture of capital and small letters.  Folding ASCII is
enough: no character outside ASCII has one of the symbols' letters as its small form.
-/
def ofSymbol? (s : String) : Option Opcode :=
  let folded := s.toList.map Char.toLower
  all.find? fun op => op.symbol.toList == folded

/-- Refusal of a word that is no symbol. -/
structure Unknown where
  word : String
  deriving DecidableEq

/-- The sentence shown to the user. -/
def Unknown.message (e : Unknown) : String :=
  "invalid instruction: " ++ e.word

/-- As `ofSymbol?`, naming the word that was refused. -/
def ofSymbol (s : String) : Except Unknown Opcode :=
  match ofSymbol? s with
  | some op => .ok op
  | none => .error ⟨s⟩

end Opcode

/-! ### Instructions -/

/-- An opcode together with its operand. -/
inductive Instruction where
  | noOp
  | moveFromInbox
  | moveToOutbox
  | onTile (action : TileAction) (tile : Tile)
  | jump (condition : Condition) (destination : Destination)
  deriving DecidableEq

instance : Inhabited Instruction := ⟨.noOp⟩

namespace Instruction

def opcode : Instruction → Opcode
  | noOp => .noOp
  | moveFromInbox => .moveFromInbox
  | moveToOutbox => .moveToOutbox
  | onTile action _ => .onTile action
  | jump condition _ => .jump condition

def tile? : Instruction → Option Tile
  | onTile _ tile => some tile
  | _ => none

def destination? : Instruction → Option Destination
  | jump _ destination => some destination
  | _ => none

/-- The text of the operand, if there is one. -/
def operandText? : Instruction → Option String
  | onTile _ tile => some tile.text
  | jump _ destination => some destination.text
  | _ => none

/-- A jump that may or may not be taken. -/
def isConditionalJump : Instruction → Bool
  | jump .ifZero _ | jump .ifNegative _ => true
  | _ => false

/-- The symbol, then the operand after a space. -/
def text (i : Instruction) : String :=
  match i.operandText? with
  | some operand => i.opcode.symbol ++ " " ++ operand
  | none => i.opcode.symbol

end Instruction

/-- Assembled code: the index of an instruction is its step. -/
abbrev Program := Array Instruction

end Mailroom
