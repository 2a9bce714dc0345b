/-
The floor of the office: numbered tiles, some of them labeled.

Only tiles that hold something are kept, so an empty tile is an absent one, which is not
the same as a tile with a zero on it.  Any number of labels may point at one tile.  A
label is looked up at the moment it is used, and pointing a label at another tile moves
no value.

Both maps compare equal when they have the same entries, whatever was done to get there,
so two memories that answer every question alike are the same memory.
-/
import Mailroom.Instruction
import Mailroom.Value
import Std.Data.ExtTreeMap

namespace Mailroom

/-- Tiles by number and labels by name, each in ascending order. -/
structure Memory where
  tiles : Std.ExtTreeMap Nat Value := ∅
  labels : Std.ExtTreeMap String Nat := ∅
  deriving DecidableEq

namespace Memory

instance : Inhabited Memory := ⟨{}⟩

/-- What can go wrong when a tile is looked up. -/
inductive Error where
  | tileEmpty (index : Nat)
  | unknownLabel (label : String)
  | indirectThroughLetter (c : Char)
  | invalidTileIndex (n : Int64)
  deriving DecidableEq

/-- The sentence shown to the user. -/
def Error.message : Error → String
  | tileEmpty index => "tile " ++ Numeral.ofNat index ++ " is empty"
  | unknownLabel label => "the label \"" ++ label ++ "\" has not been applied to any tile"
  | indirectThroughLetter c =>
    "'" ++ c.toString ++ "' is a letter, it can't be used as a tile index"
  | invalidTileIndex n => Numeral.ofInt n.toInt ++ " is not a valid tile index"

/-! ### Finding a tile -/

/--
The number of the tile that a key names.  A label that spells an integer is no name: it
was meant as a number and is one that no tile has.
-/
def resolve (m : Memory) : TileRef → Except Error Nat
  | .index i => .ok i
  | .label name =>
    match Numeral.signed? name with
    | some n => .error (.invalidTileIndex n)
    | none =>
      match m.labels[name]? with
      | some i => .ok i
      | none => .error (.unknownLabel name)

/-- The contents of a tile that must not be empty. -/
def fetch (m : Memory) (index : Nat) : Except Error Value :=
  match m.tiles[index]? with
  | some v => .ok v
  | none => .error (.tileEmpty index)

/-- A value read as the number of a tile. -/
def pointer : Value → Except Error Nat
  | .letter c => .error (.indirectThroughLetter c)
  | .int n => if n.toInt < 0 then .error (.invalidTileIndex n) else .ok n.toInt.toNat

/-- The tile that an operand means, after following it where it is indirect. -/
def target (m : Memory) (t : Tile) : Except Error Nat := do
  let index ← m.resolve t.key
  if t.indirect then pointer (← m.fetch index) else pure index

/-! ### Reading and writing -/

/-- The value on the tile that an operand means. -/
def get (m : Memory) (t : Tile) : Except Error Value := do
  m.fetch (← m.target t)

/-- Puts a value on the tile that an operand means. -/
def set (m : Memory) (t : Tile) (v : Value) : Except Error Memory := do
  let index ← m.target t
  pure { m with tiles := m.tiles.insert index v }

/-- Empties a tile and answers what was on it. -/
def clear (m : Memory) (key : TileRef) : Except Error (Option Value × Memory) := do
  let index ← m.resolve key
  pure (m.tiles[index]?, { m with tiles := m.tiles.erase index })

/-- Points a label at a tile, away from the one it pointed at before. -/
def labelTile (m : Memory) (key : TileRef) (label : String) : Except Error Memory := do
  let index ← m.resolve key
  pure { m with labels := m.labels.insert label index }

/-- The labels of a tile in ascending order. -/
def labelsOf (m : Memory) (index : Nat) : List String :=
  (m.labels.toList.filter fun entry => entry.2 == index).map (·.1)

/-! ### Layouts -/

/--
A memory with these labels in which the values lie on the tiles that their keys name.
Keys are numerals or labels and are taken in ascending order, so that of two keys for
one tile the greater one wins.
-/
def ofLayout (labels : Std.ExtTreeMap String Nat) (values : Std.ExtTreeMap String Value) :
    Except Error Memory :=
  values.toList.foldlM (fun m entry => m.set ⟨.ofString entry.1, false⟩ entry.2)
    { labels := labels }

end Memory

end Mailroom
