/-
Floors: the starting state of a puzzle.

A floor lists which tiles carry labels, what lies on the tiles and what waits in the
inbox.  It is written as a JSON object with the keys `labels`, `values` and `inbox`, in
any order, each at most once and no others; or as an array of the three in this order,
which may be cut short.  What is missing is empty.
-/
import Mailroom.Json.Reader
import Mailroom.Memory

namespace Mailroom

/-- Labels, values by the key of their tile, and the inbox. -/
structure Floor where
  labels : Std.ExtTreeMap String Nat := ∅
  values : Std.ExtTreeMap String Value := ∅
  inbox : List Value := []
  deriving DecidableEq

namespace Floor

instance : Inhabited Floor := ⟨{}⟩

/-- The memory that the floor describes. -/
def memory (f : Floor) : Except Memory.Error Memory :=
  Memory.ofLayout f.labels f.values

/-! ### Decoding -/

/-- A fault of the text where the text has one, else the complaint about the shape. -/
def refuse {α : Type} : Json → Except Json.Error α
  | .broken fault => .error (.text fault)
  | _ => .error .shape

/-- After the last item or member: the early end, if there is one. -/
def close {α : Type} (a : α) : Option Json.Fault → Except Json.Error α
  | some fault => .error (.text fault)
  | none => .ok a

/-- The number of a tile. -/
def indexOfJson : Json → Except Json.Error Nat
  | .integer n => if 0 ≤ n ∧ n < Numeral.unsignedBound then .ok n.toNat else .error .shape
  | j => refuse j

/-- An object as a map; of equal keys the last one counts. -/
def mapOfJson {α : Type} (decode : Json → Except Json.Error α) :
    Json → Except Json.Error (Std.ExtTreeMap String α)
  | .object members stop => do
    let m ← members.foldlM (fun m member => return m.insert member.1 (← decode member.2)) ∅
    close m stop
  | j => refuse j

/-- An array as a list. -/
def listOfJson {α : Type} (decode : Json → Except Json.Error α) :
    Json → Except Json.Error (List α)
  | .array items stop => do
    let l ← items.mapM decode
    close l stop
  | j => refuse j

/-- The parts of a floor that have been met so far. -/
structure Parts where
  labels : Option (Std.ExtTreeMap String Nat) := none
  values : Option (Std.ExtTreeMap String Value) := none
  inbox : Option (List Value) := none

/-- What is missing is empty. -/
def Parts.floor (p : Parts) : Floor where
  labels := p.labels.getD ∅
  values := p.values.getD ∅
  inbox := p.inbox.getD []

/-- Adds one member; a key that is unknown or was there already is refused. -/
def Parts.add (p : Parts) : String × Json → Except Json.Error Parts
  | ("labels", j) =>
    if p.labels.isSome then .error .shape
    else return { p with labels := some (← mapOfJson indexOfJson j) }
  | ("values", j) =>
    if p.values.isSome then .error .shape
    else return { p with values := some (← mapOfJson Value.ofJson j) }
  | ("inbox", j) =>
    if p.inbox.isSome then .error .shape
    else return { p with inbox := some (← listOfJson Value.ofJson j) }
  | _ => .error .shape

/-- The floor that a document describes. -/
def ofJson : Json → Except Json.Error Floor
  | .object members stop => do
    let p ← members.foldlM Parts.add {}
    close p.floor stop
  | .array items stop => do
    let p ← (["labels", "values", "inbox"].zip items).foldlM Parts.add {}
    if items.length > 3 then .error (.text .malformed) else close p.floor stop
  | j => refuse j

/-- The floor that a text describes. -/
def read (s : String) : Except Json.Error Floor :=
  Json.decode ofJson s

end Floor

/-- The value that a text describes. -/
def Value.ofDocument (s : String) : Except Json.Error Value :=
  Json.decode Value.ofJson s

end Mailroom
