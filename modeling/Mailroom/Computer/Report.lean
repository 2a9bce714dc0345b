/-
What is shown of a run from beginning to end.
-/
import Mailroom.Computer.Listing
import Mailroom.Computer.Run

namespace Mailroom

namespace Computer

/-- The lines of the whole program, without breakpoints. -/
def programLines (c : Computer) : List String :=
  (c.listing 0 c.program.size ∅).map (·.text)

/-- The contents of the inbox. -/
def inboxLine (c : Computer) : String :=
  Value.listText c.cpu.inbox

/-- The contents of the outbox. -/
def outboxLine (c : Computer) : String :=
  Value.listText c.cpu.outbox.toList

/-- Shown after a run that came to its end. -/
def totalsLine (c : Computer) : String :=
  "Program size: " ++ Numeral.ofNat c.program.size ++ "; Total steps executed: "
    ++ Numeral.ofNat c.cpu.steps

/-- Shown after a run that failed. -/
def failureLine (c : Computer) (e : Cpu.Error) : String :=
  "Error after " ++ Numeral.ofNat c.cpu.steps ++ " steps: " ++ e.message

end Computer

end Mailroom
