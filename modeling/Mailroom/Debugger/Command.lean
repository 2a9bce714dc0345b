/-
The commands of the debugger.

A command is a letter, and some letters take a word behind them, with or without spaces
or tabs between the two.  Blanks around the whole line do not count.
-/
import Mailroom.Numeral
import Mailroom.Text.Word

namespace Mailroom.Debugger

/-- What the user can ask for. -/
inductive Command where
  | accumulator
  /-- Toggles a breakpoint at a step or label, or lists them all. -/
  | breakpoint (target : Option String)
  | continue
  | everything
  | inbox
  /-- Lists so many steps from the current one, or the whole program. -/
  | list (count : Option Nat)
  /-- Shows one tile, or all of them. -/
  | memory (key : Option String)
  | outbox
  | quit
  | restart
  | step
  | help
  deriving DecidableEq

namespace Command

/-- The letters, in the order in which they are offered. -/
def letters : List Char := "abceilmoqrs?".toList

/-- What can be wrong with a line. -/
inductive Error where
  | unknownCommand (text : String)
  | unexpectedArgument (letter : Char)
  | invalidCount (word : String)
  deriving DecidableEq

/-- The sentence shown to the user. -/
def Error.message : Error → String
  | unknownCommand text => "unknown command \"" ++ text ++ "\", ? lists the commands"
  | unexpectedArgument letter => letter.toString ++ " takes no argument"
  | invalidCount word => "\"" ++ word ++ "\" is not a number of instructions"

/-- The command of a letter that stands alone. -/
def ofLetter? : Char → Option Command
  | 'a' => some .accumulator
  | 'b' => some (.breakpoint none)
  | 'c' => some .continue
  | 'e' => some .everything
  | 'i' => some .inbox
  | 'l' => some (.list none)
  | 'm' => some (.memory none)
  | 'o' => some .outbox
  | 'q' => some .quit
  | 'r' => some .restart
  | 's' => some .step
  | '?' => some .help
  | _ => none

/-- The command of a letter with a word behind it. -/
def ofLetterWord (letter : Char) (word : String) : Except Error Command :=
  match letter with
  | 'b' => .ok (.breakpoint (some word))
  | 'm' => .ok (.memory (some word))
  | 'l' =>
    match Numeral.unsigned? word with
    | some n => .ok (.list (some n))
    | none => .error (.invalidCount word)
  | _ => .error (.unexpectedArgument letter)

/-- The command that a line spells. -/
def read (line : String) : Except Error Command :=
  let cs := Text.trim line.toList
  let unknown := .error (.unknownCommand (String.ofList cs))
  match cs with
  | [] => unknown
  | letter :: rest =>
    match ofLetter? letter, rest with
    | none, _ => unknown
    | some command, [] => .ok command
    | some _, rest =>
      match Text.word? (rest.dropWhile Text.isGap) with
      | some (word, []) => ofLetterWord letter word
      | _ => unknown

end Command

end Mailroom.Debugger
