/-
What instructions do to the tiles.

Three of them write, and always on the tile that the operand means before anything is written
(`Writes`).  That can be the very tile that the operand points through.  Then the operand means
another tile afterwards, but that is for the next instruction to find.

A tick therefore changes one tile at most, and only by a copy is an empty one filled
(`Altered`).  Over many ticks no tile is emptied, and no more are filled than there are copies
(`Performs.filled`).
-/
import Mailroom.Proofs.Cpu.Tick

namespace Mailroom

/-- What is added to the integer on the tile. -/
def TileAction.change? : TileAction → Option Int
  | .bumpUp => some 1
  | .bumpDown => some (-1)
  | _ => none

/-- Does the instruction copy the accumulator to a tile? -/
def Instruction.copies : Instruction → Bool
  | .onTile .copyTo _ => true
  | _ => false

namespace Memory

/-- In this memory the instruction can write this value on this tile. -/
inductive Writes (m : Memory) : Instruction → Nat → Value → Prop
  | copyTo {t : Tile} {n : Nat} {v : Value} (hmeans : m.Means t n) :
      Writes m (.onTile .copyTo t) n v
  | bump {action : TileAction} {change : Int} {t : Tile} {n : Nat} {a b : Int64}
      (hchange : action.change? = some change) (hmeans : m.Means t n)
      (htile : m.tiles[n]? = some (.int a)) (hb : b.toInt = a.toInt + change) :
      Writes m (.onTile action t) n (.int b)

/-- There is something else on the tile than before. -/
def Changed (before after : Memory) (n : Nat) : Prop :=
  after.tiles[n]? ≠ before.tiles[n]?

/-- Some tiles have been written on, of which `most` were empty at most. -/
structure Filled (most : Nat) (before after : Memory) : Prop where
  labels : after.labels = before.labels
  /-- No tile is emptied. -/
  kept : ∀ n ∈ before.tiles, n ∈ after.tiles
  size : after.tiles.size ≤ before.tiles.size + most

/-- What an instruction can have made of the memory. -/
structure Altered (i : Instruction) (before after : Memory) : Prop
    extends Filled (if i.copies then 1 else 0) before after where
  single : ∀ n k, Changed before after n → Changed before after k → n = k
  /-- The tile is the one that the operand meant before. -/
  meant : ∀ n, Changed before after n →
    ∃ action t, i = .onTile action t ∧ action ∈ [TileAction.copyTo, .bumpUp, .bumpDown] ∧
      before.Means t n
  /-- A tile that was empty has been copied to. -/
  copied : ∀ n ∈ after.tiles, n ∉ before.tiles → ∃ t, i = .onTile .copyTo t
  /-- Where a tile is bumped, there was an integer before. -/
  bumped : ∀ action t change n, i = .onTile action t → action.change? = some change →
    Changed before after n → ∃ a b : Int64, before.tiles[n]? = some (.int a) ∧
      after.tiles[n]? = some (.int b) ∧ b.toInt = a.toInt + change

variable {m before after later : Memory} {i : Instruction} {n k : Nat} {v : Value}

theorem Filled.refl (m : Memory) : Filled 0 m m :=
  ⟨rfl, fun _ hn => hn, Nat.le_refl _⟩

theorem Filled.trans (h : Filled n before after) (h' : Filled k after later) :
    Filled (n + k) before later := by
  refine ⟨h'.labels.trans h.labels, fun i hi => h'.kept i (h.kept i hi), ?_⟩
  calc later.tiles.size
      ≤ after.tiles.size + k := h'.size
    _ ≤ before.tiles.size + n + k := Nat.add_le_add_right h.size k
    _ = before.tiles.size + (n + k) := Nat.add_assoc _ _ _

/-- An instruction need not write. -/
theorem Altered.refl (i : Instruction) (m : Memory) : Altered i m m where
  labels := rfl
  kept _ hn := hn
  size := Nat.le_add_right _ _
  single _ _ hn := absurd rfl hn
  meant _ hn := absurd rfl hn
  copied _ hn hempty := absurd hn hempty
  bumped _ _ _ _ _ _ hn := absurd rfl hn

/-- Only the tile that is written on changes. -/
theorem eq_of_changed (h : Changed m (m.write n v) k) : k = n := by
  by_contra hne
  rw [Changed, getElem?_write, if_neg (Ne.symm hne)] at h
  exact h rfl

theorem Writes.filled (h : m.Writes i n v) :
    Filled (if i.copies then 1 else 0) m (m.write n v) where
  labels := write_labels m n v
  kept _ hk := mem_write.mpr (.inr hk)
  size := by
    cases h with
    | copyTo _ => exact size_write_le m n v
    | bump _ _ htile _ =>
        have hn : n ∈ m.tiles := by rw [Std.ExtTreeMap.mem_iff_isSome_getElem?, htile]; rfl
        rw [size_write_of_mem hn]
        exact Nat.le_add_right _ _

theorem Writes.altered (h : m.Writes i n v) : Altered i m (m.write n v) where
  toFilled := h.filled
  single j k hj hk := (eq_of_changed hj).trans (eq_of_changed hk).symm
  meant k hk := by
    obtain rfl := eq_of_changed hk
    cases h with
    | copyTo hmeans => exact ⟨_, _, rfl, by simp, hmeans⟩
    | @bump action _ _ _ _ _ hchange hmeans _ _ =>
        refine ⟨_, _, rfl, ?_, hmeans⟩
        cases action with
        | bumpUp | bumpDown => simp
        | copyFrom | copyTo | add | subtract => cases hchange
  copied k hk hempty := by
    rcases mem_write.mp hk with rfl | hk
    · cases h with
      | copyTo _ => exact ⟨_, rfl⟩
      | bump _ _ htile _ =>
          rw [Std.ExtTreeMap.mem_iff_isSome_getElem?, htile] at hempty
          exact absurd rfl hempty
    · exact absurd hk hempty
  bumped action t change k hi hchange hk := by
    obtain rfl := eq_of_changed hk
    cases h with
    | copyTo _ =>
        cases hi
        cases hchange
    | bump hchange' _ htile hb =>
        cases hi
        obtain rfl := Option.some.inj (hchange.symm.trans hchange')
        refine ⟨_, _, htile, ?_, hb⟩
        rw [getElem?_write, if_pos rfl]

end Memory

namespace Cpu

variable {program : Program} {jumps : JumpTable} {start cpu next : Cpu} {i : Instruction}

/-! ### One instruction -/

theorem memory_of_row {size pc s : Nat} {after : Cpu} (h : Row jumps size pc cpu i s after) :
    after.memory = cpu.memory ∨
      ∃ n v, cpu.memory.Writes i n v ∧ after.memory = cpu.memory.write n v := by
  cases h with
  | copyTo _ hmeans => exact .inr ⟨_, _, .copyTo hmeans, rfl⟩
  | bumpUp hmeans htile hsum => exact .inr ⟨_, _, .bump rfl hmeans htile hsum, rfl⟩
  | bumpDown hmeans htile hdiff => exact .inr ⟨_, _, .bump rfl hmeans htile hdiff, rfl⟩
  | _ => exact .inl rfl

theorem altered_of_tick (h : tick program jumps cpu = .ok () next) :
    ∃ pc i, cpu.next? program = some (pc, i) ∧ Memory.Altered i cpu.memory next.memory := by
  obtain ⟨pc, i, s, worked, hnext, heffect, rfl⟩ := advance_eq_ok.mp (tick_eq_ok.mp h)
  refine ⟨pc, i, hnext, ?_⟩
  rcases memory_of_row (effect_eq_ok.mp heffect) with hmemory | ⟨n, v, hwrites, hmemory⟩
  · rw [hmemory]
    exact .refl i cpu.memory
  · rw [hmemory]
    exact hwrites.altered

/-! ### Many instructions -/

/-- From `start`, ticks in a row carry out the instructions `is` and end at `cpu`. -/
inductive Performs (program : Program) (jumps : JumpTable) (start : Cpu) :
    List Instruction → Cpu → Prop
  | nil : Performs program jumps start [] start
  | snoc {is : List Instruction} {cpu next : Cpu} {pc : Nat} {i : Instruction}
      (before : Performs program jumps start is cpu) (hnext : cpu.next? program = some (pc, i))
      (h : tick program jumps cpu = .ok () next) : Performs program jumps start (is ++ [i]) next

/-- Each tick carries out one instruction. -/
theorem Ticks.performs {n : Nat} (h : Ticks program jumps start n cpu) :
    ∃ is, is.length = n ∧ Performs program jumps start is cpu := by
  induction h with
  | zero => exact ⟨[], rfl, .nil⟩
  | succ _ htick ih =>
      obtain ⟨is, hlength, hperforms⟩ := ih
      obtain ⟨pc, i, hnext, -⟩ := altered_of_tick htick
      exact ⟨is ++ [i], by simp [hlength], hperforms.snoc hnext htick⟩

/-- Instructions fill no more tiles than there are copies among them. -/
theorem Performs.filled {is : List Instruction} (h : Performs program jumps start is cpu) :
    Memory.Filled (is.countP Instruction.copies) start.memory cpu.memory := by
  induction h with
  | nil => exact .refl start.memory
  | snoc _ hnext htick ih =>
      obtain ⟨pc, i, hnext', haltered⟩ := altered_of_tick htick
      obtain ⟨rfl, rfl⟩ := Prod.mk.inj (Option.some.inj (hnext.symm.trans hnext'))
      rw [List.countP_append, List.countP_singleton]
      exact ih.trans haltered.toFilled

/--
**An instruction writes on the tile that its operand means, and on no other.**  Only copies and
bumps write, and only a copy fills an empty tile.  In a run of any length the labels are
therefore the same throughout, no tile is emptied, and the tiles that are filled are no more than
the copies.
-/
theorem ticks_fill_by_copies (program : Program) (jumps : JumpTable) :
    (∀ cpu after, tick program jumps cpu = .ok () after →
      ∃ pc i, cpu.next? program = some (pc, i) ∧
        Memory.Altered i cpu.memory after.memory) ∧
    ∀ start n cpu, Ticks program jumps start n cpu →
      ∃ is, is.length = n ∧ Performs program jumps start is cpu ∧
        Memory.Filled (is.countP Instruction.copies) start.memory cpu.memory := by
  constructor
  · intro cpu after htick
    exact altered_of_tick htick
  · intro start n cpu hticks
    obtain ⟨is, hlength, hperforms⟩ := hticks.performs
    exact ⟨is, hlength, hperforms, hperforms.filled⟩

/-- Bumps and copies through a pointer. -/
def throughPointer : Program :=
  #[.onTile .bumpUp ⟨.index 0, true⟩, .onTile .copyTo ⟨.index 0, true⟩]

/-- The pointer is its own target. -/
def selfPointing : Cpu where
  pc := some 0
  memory := { tiles := .ofList [(0, Value.int 0)] }

/-- The bump writes on the pointer, so the copy after it goes to another tile. -/
theorem selfPointing_fills_by_copies :
    ∃ bumped copied, tick throughPointer {} selfPointing = .ok () bumped ∧
      bumped.memory.tiles[0]? = some (.int 1) ∧
      (∃ pc i, selfPointing.next? throughPointer = some (pc, i) ∧
        Memory.Altered i selfPointing.memory bumped.memory) ∧
      Ticks throughPointer {} selfPointing 2 copied ∧
      copied.memory.tiles[1]? = some (.int 1) ∧
      ∃ is, is.length = 2 ∧ Performs throughPointer {} selfPointing is copied ∧
        Memory.Filled (is.countP Instruction.copies) selfPointing.memory copied.memory := by
  obtain ⟨halters, hfills⟩ := ticks_fill_by_copies throughPointer {}
  have hbump : tick throughPointer {} selfPointing = .ok () _ := rfl
  have hticks : Ticks throughPointer {} selfPointing 2 _ := .succ (.succ .zero hbump) rfl
  exact ⟨_, _, hbump, rfl, halters _ _ hbump, hticks, rfl, hfills _ _ _ hticks⟩

end Cpu

end Mailroom
