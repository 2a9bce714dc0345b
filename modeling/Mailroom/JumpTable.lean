/-
The jump table: which step each label names.

Labels are kept in the order in which they were declared, because listings show them in
that order.  Declaring a label again moves it to another step but leaves it in its
place.  Jumps hold the label they were written with and look it up here when they run,
so a change to the table redirects them.
-/
import Mailroom.Instruction

namespace Mailroom

/-- Labels with their steps, in the order of declaration. -/
structure JumpTable where
  entries : List (String × Nat) := []
  deriving DecidableEq

namespace JumpTable

instance : Inhabited JumpTable := ⟨{}⟩

/-- The step that the label names. -/
def get? (t : JumpTable) (label : String) : Option Nat :=
  (t.entries.find? fun entry => entry.1 == label).map (·.2)

/-- Gives the first entry of the label the new step, and answers the old one. -/
def rebind (label : String) (step : Nat) :
    List (String × Nat) → Option (Nat × List (String × Nat))
  | [] => none
  | entry :: rest =>
    if entry.1 == label then some (entry.2, (label, step) :: rest)
    else (rebind label step rest).map fun (old, rest) => (old, entry :: rest)

/-- Declares a label and answers the step it named before, if it was declared already. -/
def insert (t : JumpTable) (label : String) (step : Nat) : Option Nat × JumpTable :=
  match rebind label step t.entries with
  | some (old, entries) => (some old, ⟨entries⟩)
  | none => (none, ⟨t.entries ++ [(label, step)]⟩)

/-- Takes a label away and answers the step it named. -/
def remove (t : JumpTable) (label : String) : Option Nat × JumpTable :=
  (t.get? label, ⟨t.entries.eraseP fun entry => entry.1 == label⟩)

/-- The labels of one step, in the order of declaration. -/
def labelsAt (t : JumpTable) (step : Nat) : List String :=
  (t.entries.filter fun entry => entry.2 == step).map (·.1)

/-- How many labels are declared. -/
def size (t : JumpTable) : Nat :=
  t.entries.length

def isEmpty (t : JumpTable) : Bool :=
  t.entries.isEmpty

/-- Declares the labels one after the other. -/
def ofList (entries : List (String × Nat)) : JumpTable :=
  entries.foldl (fun t entry => (t.insert entry.1 entry.2).2) {}

end JumpTable

end Mailroom
