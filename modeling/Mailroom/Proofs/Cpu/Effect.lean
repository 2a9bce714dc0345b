/-
What one instruction does, as a plain function.

An instruction is carried out as a sequence of reads and changes that may break off
anywhere.  `effect` computes the same thing without a running state: it answers the
machine after the instruction, or the failure and no machine at all.  `execute_settle`
and `tick_settle` show that the two agree, and because the function has no machine to
show after a failure, they say with it that a failing instruction leaves no trace.
-/
import Mailroom.Cpu.Lemmas

namespace Mailroom

namespace Cpu

/-! ### Effects of the parts -/

/-- The accumulator, which must not be empty. -/
def held (cpu : Cpu) : Except Error Value :=
  match cpu.accumulator with
  | some v => .ok v
  | none => .error .accumulatorEmpty

/-- The value on a tile. -/
def seen (cpu : Cpu) (t : Tile) : Except Error Value :=
  (cpu.memory.get t).mapError Error.memory

/-- The machine with a value put on a tile. -/
def put (cpu : Cpu) (t : Tile) (v : Value) : Except Error Cpu :=
  match cpu.memory.set t v with
  | .ok memory => .ok { cpu with memory }
  | .error e => .error (.memory e)

/-- The machine with another accumulator. -/
def holding (cpu : Cpu) (v : Value) : Cpu :=
  { cpu with accumulator := some v }

/-- The machine after adding to the integer on a tile. -/
def bumped (op : Opcode) (t : Tile) (change : Int64) (cpu : Cpu) : Except Error Cpu := do
  let v ← sum op (← cpu.seen t) (.int change)
  let cpu ← cpu.put t v
  return cpu.holding v

/-- The machine after an instruction that works on a tile. -/
def worked (action : TileAction) (t : Tile) (cpu : Cpu) : Except Error Cpu :=
  let op := Opcode.onTile action
  match action with
  | .copyFrom => return cpu.holding (← cpu.seen t)
  | .copyTo => do cpu.put t (← cpu.held)
  | .add => do
    let v ← cpu.held
    return cpu.holding (← sum op v (← cpu.seen t))
  | .subtract => do
    let v ← cpu.held
    return cpu.holding (← difference op v (← cpu.seen t))
  | .bumpUp => bumped op t 1 cpu
  | .bumpDown => bumped op t (-1) cpu

/-- Is a jump taken by this machine? -/
def taken (condition : Condition) (cpu : Cpu) : Except Error Bool :=
  match condition with
  | .always => return true
  | condition => do satisfies condition (← cpu.held)

/-- The step that follows an instruction, and the machine after it. -/
def effect (i : Instruction) (pc size : Nat) (jumps : JumpTable) (cpu : Cpu) :
    Except Error (Nat × Cpu) :=
  match i with
  | .noOp => .ok (pc + 1, cpu)
  | .moveFromInbox =>
    match cpu.inbox with
    | [] => .error .inboxEmpty
    | v :: rest => .ok (pc + 1, { cpu with inbox := rest, accumulator := some v })
  | .moveToOutbox => do
    let v ← cpu.held
    return (pc + 1, { cpu with outbox := cpu.outbox.push v, accumulator := none })
  | .onTile action t => do
    let cpu ← cpu.worked action t
    return (pc + 1, cpu)
  | .jump condition destination => do
    if ← cpu.taken condition then return (← destination.resolve jumps size, cpu)
    else return (pc + 1, cpu)

/-- The machine after its next instruction, or the reason why there is none. -/
def advance (program : Program) (jumps : JumpTable) (cpu : Cpu) : Except Error Cpu :=
  match cpu.next? program with
  | none => .error .halted
  | some (pc, i) => do
    let (step, after) ← cpu.effect i pc program.size jumps
    return { after with pc := some step, steps := after.steps + 1 }

/-! ### Running the parts gives their effects -/

/-- A computation that either completes with another machine or leaves the machine alone. -/
def settle {α : Type} (cpu : Cpu) : Except Error (α × Cpu) → EStateM.Result Error Cpu α
  | .ok (a, after) => .ok a after
  | .error e => .error e cpu

theorem bind_run {α β : Type} (a : Action α) (f : α → Action β) (cpu : Cpu) :
    (a >>= f) cpu = match a cpu with
      | .ok x after => f x after
      | .error e after => .error e after := by
  cases h : a cpu <;> simp [bind, EStateM.bind, h]

theorem accumulated_settle (cpu : Cpu) :
    accumulated cpu = settle cpu (cpu.held.map (·, cpu)) := by
  rw [accumulated_run, held]
  cases cpu.accumulator <;> rfl

theorem load_settle (t : Tile) (cpu : Cpu) :
    load t cpu = settle cpu ((cpu.seen t).map (·, cpu)) := by
  rw [load_run, seen]
  cases cpu.memory.get t <;> rfl

theorem store_settle (t : Tile) (v : Value) (cpu : Cpu) :
    store t v cpu = settle cpu ((cpu.put t v).map ((), ·)) := by
  rw [store_run, put]
  cases cpu.memory.set t v <;> rfl

theorem liftExcept_settle {α : Type} (r : Except Error α) (cpu : Cpu) :
    (liftExcept r : Action α) cpu = settle cpu (r.map (·, cpu)) := by
  rw [liftExcept_run]
  cases r <;> rfl

/-- Reads come first, and what follows them is all or nothing: so is the whole. -/
theorem bind_settle {α β : Type} {a : Action α} {r : Except Error α} {f : α → Action β}
    {g : α → Except Error (β × Cpu)} {cpu : Cpu} (ha : a cpu = settle cpu (r.map (·, cpu)))
    (hf : ∀ x, f x cpu = settle cpu (g x)) : (a >>= f) cpu = settle cpu (r >>= g) := by
  rw [bind_run, ha]
  cases r with
  | error e => rfl
  | ok x => exact hf x

/-- The same for actions that answer nothing. -/
theorem bind_settle_unit {α : Type} {a : Action α} {r : Except Error α} {f : α → Action Unit}
    {g : α → Except Error Cpu} {cpu : Cpu} (ha : a cpu = settle cpu (r.map (·, cpu)))
    (hf : ∀ x, f x cpu = settle cpu ((g x).map ((), ·))) :
    (a >>= f) cpu = settle cpu ((r >>= g).map ((), ·)) := by
  have hmap : (r >>= g).map ((), ·) = r >>= fun x => (g x).map (((), ·) : Cpu → Unit × Cpu) := by
    cases r <;> rfl
  rw [hmap]
  exact bind_settle ha hf

theorem bump_settle (op : Opcode) (t : Tile) (change : Int64) (cpu : Cpu) :
    bump op t change cpu = settle cpu ((cpu.bumped op t change).map ((), ·)) := by
  refine bind_settle_unit (load_settle t cpu) ?_
  intro v
  refine bind_settle_unit (liftExcept_settle _ cpu) ?_
  intro w
  rw [bind_run, store_settle]
  cases cpu.put t w <;> rfl

theorem work_settle (action : TileAction) (t : Tile) (cpu : Cpu) :
    work action t cpu = settle cpu ((cpu.worked action t).map ((), ·)) := by
  cases action with
  | copyFrom =>
      refine bind_settle_unit (load_settle t cpu) ?_
      intro v
      rfl
  | copyTo =>
      refine bind_settle_unit (accumulated_settle cpu) ?_
      intro v
      exact store_settle t v cpu
  | add =>
      refine bind_settle_unit (accumulated_settle cpu) ?_
      intro v
      refine bind_settle_unit (load_settle t cpu) ?_
      intro w
      refine bind_settle_unit (liftExcept_settle _ cpu) ?_
      intro x
      rfl
  | subtract =>
      refine bind_settle_unit (accumulated_settle cpu) ?_
      intro v
      refine bind_settle_unit (load_settle t cpu) ?_
      intro w
      refine bind_settle_unit (liftExcept_settle _ cpu) ?_
      intro x
      rfl
  | bumpUp => exact bump_settle _ t 1 cpu
  | bumpDown => exact bump_settle _ t (-1) cpu

theorem isTaken_settle (condition : Condition) (cpu : Cpu) :
    isTaken condition cpu = settle cpu ((cpu.taken condition).map (·, cpu)) := by
  have hread : ∀ c : Condition, (do liftExcept (satisfies c (← accumulated)) : Action Bool) cpu
      = settle cpu ((cpu.held >>= satisfies c).map (·, cpu)) := by
    intro c
    have hmap : (cpu.held >>= satisfies c).map (·, cpu)
        = cpu.held >>= fun v => (satisfies c v).map (·, cpu) := by
      cases cpu.held <;> rfl
    rw [hmap]
    refine bind_settle (accumulated_settle cpu) ?_
    intro v
    exact liftExcept_settle _ cpu
  cases condition with
  | always => rfl
  | ifZero => exact hread .ifZero
  | ifNegative => exact hread .ifNegative

/-- **An instruction has its effect, or fails and changes nothing.** -/
theorem execute_settle (i : Instruction) (pc size : Nat) (jumps : JumpTable) (cpu : Cpu) :
    execute i pc size jumps cpu = settle cpu (cpu.effect i pc size jumps) := by
  cases i with
  | noOp => rfl
  | moveFromInbox =>
      show (moveFromInbox >>= fun _ => pure (pc + 1)) cpu = _
      rw [bind_run, moveFromInbox_run, effect]
      cases cpu.inbox <;> rfl
  | moveToOutbox =>
      show (moveToOutbox >>= fun _ => pure (pc + 1)) cpu = _
      rw [bind_run, moveToOutbox_run, effect, held]
      cases cpu.accumulator <;> rfl
  | onTile action t =>
      show (work action t >>= fun _ => pure (pc + 1)) cpu = _
      rw [bind_run, work_settle, effect]
      cases cpu.worked action t <;> rfl
  | jump condition destination =>
      refine bind_settle (isTaken_settle condition cpu) ?_
      intro taken
      cases taken with
      | false => rfl
      | true =>
          show (liftExcept (destination.resolve jumps size) : Action Nat) cpu = _
          rw [liftExcept_settle]
          cases destination.resolve jumps size <;> rfl

/-- **A tick goes on to the next machine, or fails and changes nothing.** -/
theorem tick_settle (program : Program) (jumps : JumpTable) (cpu : Cpu) :
    tick program jumps cpu = settle cpu ((cpu.advance program jumps).map ((), ·)) := by
  show (match cpu.next? program with
    | none => throw .halted
    | some (pc, i) => execute i pc program.size jumps >>= fun step =>
        modify fun cpu => { cpu with pc := some step, steps := cpu.steps + 1 } : Action Unit) cpu
      = _
  rw [advance]
  cases cpu.next? program with
  | none => rfl
  | some next =>
      obtain ⟨pc, i⟩ := next
      show (execute i pc program.size jumps >>= _) cpu = _
      rw [bind_run, execute_settle]
      cases heff : cpu.effect i pc program.size jumps <;> simp only [heff] <;> rfl

end Cpu

end Mailroom
