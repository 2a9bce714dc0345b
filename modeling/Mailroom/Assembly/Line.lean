/-
One line of program text.

Each line stands for itself: nothing on it depends on the lines around it.  `clean`
removes the comment and the blanks at both ends, and a line that is not empty then has
one of these forms, where a gap is one or more spaces or tabs:

    word:           declares a label
    word            an opcode
    word gap word   an opcode with an argument
    word gap [word] an opcode with an indirect argument

Whether the first word is an opcode, and whether that opcode takes such an argument, is
no question of form and is decided by the assembler.
-/
import Mailroom.Text.Word

namespace Mailroom.Assembly

/-- The operand as it is written; brackets around it make it indirect. -/
structure Argument where
  text : String
  indirect : Bool
  deriving DecidableEq

/-- What a line says. -/
inductive Line where
  | label (name : String)
  | command (symbol : String) (argument : Option Argument)
  deriving DecidableEq

namespace Line

/-- The line without its comment and without blanks at either end. -/
def clean (cs : List Char) : List Char :=
  Text.trim (cs.takeWhile (· != '#'))

/-- An argument that takes up the whole text. -/
def argument? : List Char → Option Argument
  | '[' :: cs =>
    match Text.word? cs with
    | some (w, [']']) => some ⟨w, true⟩
    | _ => none
  | cs =>
    match Text.word? cs with
    | some (w, []) => some ⟨w, false⟩
    | _ => none

/-- Reads a cleaned line. -/
def read? (cs : List Char) : Option Line :=
  match Text.word? cs with
  | none => none
  | some (w, []) => some (.command w none)
  | some (w, [':']) => some (.label w)
  | some (w, c :: rest) =>
    if Text.isGap c then
      (argument? (rest.dropWhile Text.isGap)).map fun a => .command w (some a)
    else none

end Line

end Mailroom.Assembly
