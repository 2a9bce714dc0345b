/-
The command line: what the words behind the program's name ask for.
-/
import Mailroom.Log

namespace Mailroom.CommandLine

/-- What is to be done with a program. -/
inductive Task where
  | list
  | run
  | debug
  deriving DecidableEq

/-- A task with everything it needs to know; files are given by name. -/
structure Options where
  task : Task
  program : Option String := none
  items : List String := []
  floor : Option String := none
  history : String := ".mailroom_history"
  quiet : Bool := false
  plain : Bool := false
  verbosity : Nat := 0
  deriving DecidableEq

/-- What the user wants. -/
inductive Request where
  | help
  | perform (options : Options)
  deriving DecidableEq

/-- Why the words ask for nothing. -/
inductive Mistake where
  | noTask
  | unknownTask (word : String)
  | unknownOption (word : String)
  | valueRequired (option : String)
  | programRequired
  | tooManyFiles
  deriving DecidableEq

/-- The sentence shown to the user. -/
def Mistake.message : Mistake → String
  | noTask => "Say what to do: list, run or debug"
  | unknownTask word => "Unknown task: " ++ word
  | unknownOption word => "Unknown option: " ++ word
  | valueRequired option => "Option requires a value: " ++ option
  | programRequired => "A program file is required"
  | tooManyFiles => "Only one program can be listed"

/-- The explanation of the command line. -/
def usage : List String :=
  ["Usage:",
   "  mailroom list  [options] [<file>]",
   "  mailroom run   [options] <file> [--] [<item>...]",
   "  mailroom debug [options] <file> [--] [<item>...]",
   "",
   "  <file>              The program; list reads standard input without it.",
   "  <item>              Inbox items, after those of the floor.",
   "  -f, --floor <file>  JSON floor: memory labels, tile values and inbox.",
   "  -q, --quiet         Only print the outbox.",
   "  --history <file>    History file of the debugger.",
   "  --plain             No colors and no history.",
   "  -v                  Log more, repeat for even more.",
   "  -h, --help          Show this message."]

/-- A word that is no option: the first is the program, the others are items. -/
def Options.addWord (o : Options) (word : String) : Options :=
  match o.program with
  | none => { o with program := some word }
  | some _ => { o with items := o.items ++ [word] }

/-- Reads the words behind the task. -/
def options (o : Options) : List String → Except Mistake Request
  | [] =>
    match o.task, o.program with
    | .list, _ => if o.items.isEmpty then .ok (.perform o) else .error .tooManyFiles
    | _, none => .error .programRequired
    | _, some _ => .ok (.perform o)
  | "--" :: rest => options (rest.foldl Options.addWord o) []
  | ["-f"] => .error (.valueRequired "-f")
  | ["--floor"] => .error (.valueRequired "--floor")
  | ["--history"] => .error (.valueRequired "--history")
  | "-f" :: name :: rest => options { o with floor := some name } rest
  | "--floor" :: name :: rest => options { o with floor := some name } rest
  | "--history" :: name :: rest => options { o with history := name } rest
  | "-q" :: rest => options { o with quiet := true } rest
  | "--quiet" :: rest => options { o with quiet := true } rest
  | "--plain" :: rest => options { o with plain := true } rest
  | "-v" :: rest => options { o with verbosity := o.verbosity + 1 } rest
  | "-h" :: _ => .ok .help
  | "--help" :: _ => .ok .help
  | word :: rest =>
    if word.toList.head? = some '-' ∧ word.length > 1 ∧ o.program.isNone then
      .error (.unknownOption word)
    else options (o.addWord word) rest
termination_by words => words.length

/-- Reads the whole command line. -/
def read : List String → Except Mistake Request
  | [] => .error .noTask
  | "list" :: rest => options { task := .list } rest
  | "run" :: rest => options { task := .run } rest
  | "debug" :: rest => options { task := .debug } rest
  | "-h" :: _ => .ok .help
  | "--help" :: _ => .ok .help
  | word :: _ => .error (.unknownTask word)

end Mailroom.CommandLine
