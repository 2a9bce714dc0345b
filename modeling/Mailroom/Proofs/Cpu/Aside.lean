/-
What an instruction has nothing to do with.

An instruction on a tile reads and changes the accumulator and the memory, and a jump
looks at the accumulator.  So a change of the machine that goes past these two (`Aside`)
can be made before such an instruction or after it, and the instruction succeeds or fails
all the same.  So does one that sends a value, if the change keeps clear of the outbox too
(`Aside.effect_eq`).  The step and the jump table may be others as well, as long as the steps
that can follow correspond.

Values that lie ready behind those of the inbox are such a change, and so is another place
of the machine in the program.
-/
import Mailroom.Proofs.Cpu.Tick

namespace Mailroom

namespace Cpu

/-- A change of the machine that goes past the accumulator and the memory. -/
structure Aside (f : Cpu → Cpu) : Prop where
  accumulator : ∀ cpu, (f cpu).accumulator = cpu.accumulator
  memory : ∀ cpu, (f cpu).memory = cpu.memory
  /-- It can be made before the accumulator is filled or after it. -/
  holding : ∀ cpu v, (f cpu).holding v = f (cpu.holding v)
  /-- It can be made before the memory is exchanged or after it. -/
  exchanging : ∀ cpu memory, { f cpu with memory } = f { cpu with memory }

variable {f : Cpu → Cpu} {cpu after : Cpu} {jumps jumps' : JumpTable} {pc pc' size size' : Nat}

namespace Aside

/-! ### What an instruction reads -/

theorem held_eq (hf : Aside f) (cpu : Cpu) : (f cpu).held = cpu.held := by
  rw [held, held, hf.accumulator]

theorem seen_eq (hf : Aside f) (cpu : Cpu) (t : Tile) : (f cpu).seen t = cpu.seen t := by
  rw [seen, seen, hf.memory]

theorem taken_eq (hf : Aside f) (cpu : Cpu) (condition : Condition) :
    (f cpu).taken condition = cpu.taken condition := by
  cases condition <;> simp only [taken, hf.held_eq]

/-! ### What an instruction changes -/

theorem put_eq (hf : Aside f) (cpu : Cpu) (t : Tile) (v : Value) :
    (f cpu).put t v = f <$> cpu.put t v := by
  simp only [put, hf.memory]
  cases cpu.memory.set t v with
  | error e => rfl
  | ok memory => exact congrArg Except.ok (hf.exchanging cpu memory)

theorem bumped_eq (hf : Aside f) (cpu : Cpu) (op : Opcode) (t : Tile) (change : Int64) :
    (f cpu).bumped op t change = f <$> cpu.bumped op t change := by
  simp only [bumped, map_bind, hf.seen_eq, hf.put_eq]
  refine bind_congr fun v => bind_congr fun w => ?_
  cases cpu.put t w with
  | error e => rfl
  | ok written => exact congrArg Except.ok (hf.holding written w)

/-- An instruction on a tile does the same before the change and after it. -/
theorem worked_eq (hf : Aside f) (cpu : Cpu) (action : TileAction) (t : Tile) :
    (f cpu).worked action t = f <$> cpu.worked action t := by
  cases action with
  | copyFrom =>
      simp only [worked, map_bind, hf.seen_eq, hf.holding]
      rfl
  | copyTo => simp only [worked, map_bind, hf.held_eq, hf.put_eq]
  | add | subtract =>
      simp only [worked, map_bind, hf.held_eq, hf.seen_eq, hf.holding]
      rfl
  | bumpUp => exact hf.bumped_eq cpu _ t 1
  | bumpDown => exact hf.bumped_eq cpu _ t (-1)

/--
**So does every instruction that takes nothing from the inbox**, also at another step and with
another jump table, if the steps that can follow it correspond by `g`.  The change must not
stand in the way of a value that is sent to the outbox.
-/
theorem effect_eq (hf : Aside f) {g : Nat → Nat} {i : Instruction} (hin : i ≠ .moveFromInbox)
    (hsend : ∀ v, { f cpu with outbox := (f cpu).outbox.push v, accumulator := none }
      = f { cpu with outbox := cpu.outbox.push v, accumulator := none })
    (hnext : pc' + 1 = g (pc + 1))
    (hland : ∀ d, i.destination? = some d →
      d.resolve jumps' size' = g <$> d.resolve jumps size) :
    (f cpu).effect i pc' size' jumps'
      = Prod.map g f <$> cpu.effect i pc size jumps := by
  cases i with
  | noOp => exact congrArg (fun s => Except.ok (s, f cpu)) hnext
  | moveFromInbox => exact absurd rfl hin
  | moveToOutbox =>
      simp only [effect, map_bind, hf.held_eq, hnext]
      cases cpu.held with
      | error e => rfl
      | ok v => exact congrArg (fun after => Except.ok (g (pc + 1), after)) (hsend v)
  | onTile action t =>
      simp only [effect, map_bind, hf.worked_eq, hnext]
      cases cpu.worked action t <;> rfl
  | jump condition d =>
      simp only [effect, map_bind, hf.taken_eq, hnext, hland d rfl]
      refine bind_congr fun b => ?_
      cases b with
      | false => rfl
      | true => cases d.resolve jumps size <;> rfl

end Aside

end Cpu

end Mailroom
