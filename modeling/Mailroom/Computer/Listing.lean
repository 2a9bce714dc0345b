/-
Listings: the program with its labels, its breakpoints and the current step.

A listing is a list of lines that still know what they are.  Labels stand above the step
they name, in the order of the jump table, and the labels of the step after the last
instruction stand at the end.  A listing of a range shows the labels of its steps and,
where the range reaches the end of the program, those at the end, so listings of
adjacent ranges put together give the listing of the whole.
-/
import Mailroom.Computer
import Std.Data.ExtTreeSet

namespace Mailroom

/-- A line of a listing. -/
inductive ListingLine where
  | label (name : String)
  | step (breakpoint current : Bool) (number : Nat) (instruction : Instruction)
  deriving DecidableEq

/-- An exclamation mark shows a breakpoint and an at sign the current step. -/
def ListingLine.text : ListingLine → String
  | label name => name ++ ":"
  | step breakpoint current number instruction =>
    "  " ++ (if breakpoint then "!" else " ") ++ (if current then "@" else " ")
      ++ Numeral.ofStep number ++ ": " ++ instruction.text

namespace Computer

/-- The labels of a step, one line each. -/
def labelLines (c : Computer) (step : Nat) : List ListingLine :=
  (c.jumps.labelsAt step).map .label

/-- A step below its labels; nothing for a step outside the program. -/
def stepLines (c : Computer) (breakpoints : Std.ExtTreeSet Nat) (step : Nat) :
    List ListingLine :=
  match c.program[step]? with
  | some i =>
    c.labelLines step ++ [.step (breakpoints.contains step) (c.cpu.pc == some step) step i]
  | none => []

/-- The steps from `start` up to but without `stop`, as far as the program goes. -/
def listing (c : Computer) (start stop : Nat) (breakpoints : Std.ExtTreeSet Nat) :
    List ListingLine :=
  let stop := min stop c.program.size
  (List.range' start (stop - start)).flatMap (c.stepLines breakpoints)
    ++ if stop = c.program.size ∧ start ≤ stop then c.labelLines stop else []

/-- The whole program as one text, without breakpoints. -/
def render (c : Computer) : String :=
  "\n".intercalate ((c.listing 0 c.program.size ∅).map (·.text))

end Computer

end Mailroom
