/-
Names can be looked up early.

An operand keeps the name it was written with, and the name is looked up whenever its
instruction runs.  Looking all names up before the run comes to the same, because nothing
that a program does moves a label or touches the jump table (`Cpu.Kept.labels`): every
instruction of the program with numbers in the place of names does what the one with the
name does, in all its modes and with all its failures (`Cpu.effect_bound`).

A name that stands for nothing is left as it is, and is refused with the same words.  There
is one failure that does not read the same: a jump to a label which names a step outside the
program is then refused for the number and not for the label.
-/
import Mailroom.Proofs.Computer.Course
import Mailroom.Proofs.Cpu.Failure

namespace Mailroom

open Cpu (Ticks)

/-! ### Putting numbers in the place of names -/

/-- The number of the tile, if the name has one. -/
def TileRef.bound (m : Memory) (key : TileRef) : TileRef :=
  match m.resolve key with
  | .ok i => .index i
  | .error _ => key

def Tile.bound (m : Memory) (t : Tile) : Tile :=
  { t with key := t.key.bound m }

/-- The number of the step, if the label is in the table. -/
def Destination.bound (jumps : JumpTable) (d : Destination) : Destination :=
  match d.named? jumps with
  | some s => .step s
  | none => d

def Instruction.bound (m : Memory) (jumps : JumpTable) : Instruction → Instruction
  | noOp => noOp
  | moveFromInbox => moveFromInbox
  | moveToOutbox => moveToOutbox
  | onTile action t => onTile action (t.bound m)
  | jump condition d => jump condition (d.bound jumps)

def Program.bound (m : Memory) (jumps : JumpTable) (program : Program) : Program :=
  program.map (Instruction.bound m jumps)

/-- The same failure, with a number in the place of a label that the table knows. -/
def Cpu.Error.bound (jumps : JumpTable) : Cpu.Error → Cpu.Error
  | noSuchJumpDestination d => noSuchJumpDestination (d.bound jumps)
  | e => e

/-- The computer with all names of its program looked up. -/
def Computer.bound (c : Computer) : Computer :=
  { c with program := c.program.bound c.cpu.memory c.jumps }

/-! ### Looking up again -/

namespace Memory

variable {m m' : Memory}

theorem resolve_congr (hlabels : m.labels = m'.labels) (key : TileRef) :
    m.resolve key = m'.resolve key := by
  cases key with
  | index i => rfl
  | label name => simp only [resolve, hlabels]

theorem resolve_bound (hlabels : m.labels = m'.labels) (key : TileRef) :
    m.resolve (key.bound m') = m.resolve key := by
  rw [resolve_congr hlabels key, TileRef.bound]
  cases hkey : m'.resolve key with
  | ok i => rfl
  | error e =>
      show m.resolve key = .error e
      rw [resolve_congr hlabels, hkey]

theorem target_bound (hlabels : m.labels = m'.labels) (t : Tile) :
    m.target (t.bound m') = m.target t := by
  simp only [target, Tile.bound, resolve_bound hlabels]
  rfl

end Memory

theorem Destination.named?_bound (jumps : JumpTable) (d : Destination) :
    (d.bound jumps).named? jumps = d.named? jumps := by
  rw [Destination.bound]
  cases hname : d.named? jumps with
  | none => exact hname
  | some s => rfl

theorem Destination.resolve_bound (jumps : JumpTable) (size : Nat) (d : Destination) :
    (d.bound jumps).resolve jumps size
      = (d.resolve jumps size).mapError (Cpu.Error.bound jumps) := by
  rw [resolve_eq, resolve_eq, named?_bound]
  cases d.named? jumps with
  | none => rfl
  | some s =>
      by_cases hlt : s < size
      · simp only [hlt, if_true]
        rfl
      · simp only [hlt, if_false]
        rfl

/-- Labels that have not moved are looked up to the same numbers. -/
theorem Instruction.bound_congr {m m' : Memory} (hlabels : m.labels = m'.labels)
    (jumps : JumpTable) : Instruction.bound m jumps = Instruction.bound m' jumps := by
  funext i
  cases i with
  | onTile action t =>
      simp only [bound, Tile.bound, TileRef.bound, Memory.resolve_congr hlabels]
  | noOp | moveFromInbox | moveToOutbox | jump _ _ => rfl

/-! ### One instruction -/

namespace Cpu

variable {cpu : Cpu} {m : Memory} {jumps : JumpTable}

theorem Error.OfValues.bound_eq {e : Error} (h : e.OfValues) : e.bound jumps = e := by
  cases e with
  | noSuchJumpDestination d => cases h
  | memory _ | inboxEmpty | accumulatorEmpty | incompatibleTypes _ _ | overflow _ | halted => rfl

theorem Error.bound_eq_inboxEmpty {e : Error} : e.bound jumps = .inboxEmpty ↔ e = .inboxEmpty := by
  cases e <;> simp [bound]

theorem seen_bound (hlabels : cpu.memory.labels = m.labels) (t : Tile) :
    cpu.seen (t.bound m) = cpu.seen t := by
  simp only [seen, Memory.get, Memory.target_bound hlabels]

theorem put_bound (hlabels : cpu.memory.labels = m.labels) (t : Tile) (v : Value) :
    cpu.put (t.bound m) v = cpu.put t v := by
  simp only [put, Memory.set, Memory.target_bound hlabels]

theorem worked_bound (hlabels : cpu.memory.labels = m.labels) (action : TileAction) (t : Tile) :
    cpu.worked action (t.bound m) = cpu.worked action t := by
  cases action <;> simp only [worked, bumped, seen_bound hlabels, put_bound hlabels]

/-- **An instruction has the same effect whether or not its names are looked up early.** -/
theorem effect_bound (hlabels : cpu.memory.labels = m.labels) (i : Instruction) (pc size : Nat) :
    cpu.effect (i.bound m jumps) pc size jumps
      = (cpu.effect i pc size jumps).mapError (Error.bound jumps) := by
  cases i with
  | noOp => rfl
  | moveFromInbox =>
      simp only [Instruction.bound, effect]
      cases cpu.inbox <;> rfl
  | moveToOutbox =>
      simp only [Instruction.bound, effect]
      cases hheld : cpu.held with
      | ok v => rfl
      | error e => exact congrArg Except.error (held_error hheld).bound_eq.symm
  | onTile action t =>
      simp only [Instruction.bound, effect, worked_bound hlabels]
      cases hwork : cpu.worked action t with
      | ok after => rfl
      | error e => exact congrArg Except.error (worked_error hwork).bound_eq.symm
  | jump condition d =>
      simp only [Instruction.bound, effect, Destination.resolve_bound]
      cases htaken : cpu.taken condition with
      | error e => exact congrArg Except.error (taken_error htaken).bound_eq.symm
      | ok b =>
          cases b with
          | false => rfl
          | true => cases d.resolve jumps size <;> rfl

theorem next?_bound (cpu : Cpu) (m : Memory) (jumps : JumpTable) (program : Program) :
    cpu.next? (program.bound m jumps)
      = (cpu.next? program).map fun (pc, i) => (pc, i.bound m jumps) := by
  simp only [next?, Program.bound, Array.getElem?_map]
  cases cpu.halted with
  | true => rfl
  | false =>
      cases cpu.pc with
      | none => rfl
      | some pc => cases hi : program[pc]? <;> simp [hi]

theorem advance_bound (hlabels : cpu.memory.labels = m.labels) (program : Program) :
    cpu.advance (program.bound m jumps) jumps
      = (cpu.advance program jumps).mapError (Error.bound jumps) := by
  have hsize : (program.bound m jumps).size = program.size := Array.size_map
  simp only [advance, next?_bound, hsize]
  cases cpu.next? program with
  | none => rfl
  | some next =>
      obtain ⟨pc, i⟩ := next
      simp only [Option.map_some, effect_bound hlabels]
      cases cpu.effect i pc program.size jumps <;> rfl

theorem tick_bound_ok (hlabels : cpu.memory.labels = m.labels) {program : Program} {next : Cpu} :
    tick (program.bound m jumps) jumps cpu = .ok () next ↔
      tick program jumps cpu = .ok () next := by
  rw [tick_eq_ok, tick_eq_ok, advance_bound hlabels]
  cases cpu.advance program jumps with
  | ok after => rfl
  | error e =>
      constructor
      · intro h
        cases h
      · intro h
        cases h

theorem tick_bound_error (hlabels : cpu.memory.labels = m.labels) {program : Program} {e : Error}
    (h : tick program jumps cpu = .error e cpu) :
    tick (program.bound m jumps) jumps cpu = .error (e.bound jumps) cpu := by
  rw [tick_eq_error, advance_bound hlabels, (tick_eq_error.mp h).1]
  exact ⟨rfl, rfl⟩

/-- A row of ticks never moves a label. -/
theorem Ticks.labels_eq {program : Program} {start : Cpu} {n : Nat}
    (h : Ticks program jumps start n cpu) : cpu.memory.labels = start.memory.labels := by
  induction h with
  | zero => rfl
  | succ _ htick ih => rw [(ticked_of_advance (tick_eq_ok.mp htick)).labels, ih]

theorem ticks_bound (start : Cpu) {program : Program} {n : Nat} :
    Ticks (program.bound start.memory jumps) jumps start n cpu ↔
      Ticks program jumps start n cpu := by
  constructor
  · intro h
    induction h with
    | zero => exact .zero
    | succ _ htick ih => exact .succ ih ((tick_bound_ok ih.labels_eq).mp htick)
  · intro h
    induction h with
    | zero => exact .zero
    | succ before htick ih => exact .succ ih ((tick_bound_ok before.labels_eq).mpr htick)

end Cpu

/-! ### The loop -/

namespace Computer

theorem isRunning_bound (c : Computer) : c.bound.isRunning = c.isRunning := by
  simp only [isRunning, bound, Cpu.next?_bound, Option.isSome_map]

/-- While no label moves it does not matter when the names are looked up. -/
theorem bound_withCpu (c : Computer) {cpu : Cpu}
    (hlabels : cpu.memory.labels = c.cpu.memory.labels) :
    bound { c with cpu } = { c.bound with cpu } := by
  simp only [bound, Program.bound, Instruction.bound_congr hlabels]

end Computer

namespace Loop

/-- The loop at the same point of the program with its names looked up. -/
def bound (l : Loop Unit) : Loop Unit :=
  { l with computer := l.computer.bound }

end Loop

/-- The outcome of the program with its names looked up. -/
def Outcome.bound (o : Outcome Unit) : Outcome Unit :=
  { o with
    result := o.result.mapError (Cpu.Error.bound o.computer.jumps), computer := o.computer.bound }

def Turn.bound : Turn Unit → Turn Unit
  | .next l => .next l.bound
  | .over o => .over o.bound

namespace Loop

theorem tick_bound (l : Loop Unit) : l.bound.tick.2 = l.tick.2.bound := by
  cases htick : Cpu.tick l.computer.program l.computer.jumps l.computer.cpu with
  | ok _ cpu =>
      have hlabels := (Cpu.ticked_of_advance (Cpu.tick_eq_ok.mp htick)).labels
      rw [tick_of_ok htick, tick_of_ok (l := l.bound) ((Cpu.tick_bound_ok rfl).mpr htick)]
      simp only [Turn.bound, bound, Computer.bound_withCpu _ hlabels]
  | error e cpu =>
      obtain ⟨-, rfl⟩ := Cpu.tick_eq_error.mp htick
      have hbound := Cpu.tick_bound_error (m := l.computer.cpu.memory) rfl htick
      by_cases he : e = .inboxEmpty
      · subst he
        rw [tick_of_inboxEmpty htick, tick_of_inboxEmpty (l := l.bound) hbound]
        rfl
      · have hne : e.bound l.computer.jumps ≠ .inboxEmpty := mt Cpu.Error.bound_eq_inboxEmpty.mp he
        rw [tick_of_error htick he, tick_of_error (l := l.bound) hbound hne]
        rfl

/-- Left alone, a running loop does nothing but tick. -/
theorem turn_unattended {l : Loop Unit} (hrun : l.computer.isRunning = true) :
    (l.turn .unattended).2 = l.tick.2 := by
  cases hresumed : l.resumed with
  | true => rw [turn_of_cleared hrun (.resumed hresumed)]
  | false => rw [turn_of_cleared hrun (.asked hresumed rfl)]

theorem turn_bound (l : Loop Unit) :
    (l.bound.turn .unattended).2 = (l.turn .unattended).2.bound := by
  have hbound : l.bound.computer.isRunning = l.computer.isRunning := l.computer.isRunning_bound
  cases hrun : l.computer.isRunning with
  | false =>
      rw [turn_of_end hrun, turn_of_end (hbound.trans hrun)]
      rfl
  | true => rw [turn_unattended hrun, turn_unattended (hbound.trans hrun), tick_bound]

theorem drive_bound : ∀ (fuel : Nat) (l : Loop Unit),
    l.bound.drive .unattended (fun _ _ => ()) fuel ()
      = (l.drive .unattended (fun _ _ => ()) fuel ()).map fun (a, o) => (a, o.bound) := by
  intro fuel
  induction fuel with
  | zero => intro l; rfl
  | succ fuel ih =>
      intro l
      have hturn := turn_bound l
      simp only [drive]
      rw [hturn]
      cases (l.turn .unattended).2 with
      | next l' => exact ih l'
      | «over» o => rfl

end Loop

namespace Computer

theorem run_eq_bound (c : Computer) (fuel : Nat) :
    c.bound.run fuel = (c.run fuel).map Outcome.bound := by
  have hdrive := Loop.drive_bound fuel (Loop.start c ())
  have hstart : (Loop.start c ()).bound = Loop.start c.bound () := rfl
  rw [hstart] at hdrive
  simp only [run, runWith, observe, hdrive, Option.map_map]
  rfl

/--
**Looking names up early changes nothing.**  The program with its names looked up goes through
the same machines, and ends after the same number of turns with the same machine and the same
result, except that a failing jump may name its destination by number.
-/
theorem run_bound (c : Computer) :
    (∀ n cpu, Ticks c.bound.program c.bound.jumps c.bound.cpu.reset n cpu ↔
      Ticks c.program c.jumps c.cpu.reset n cpu) ∧
    ∀ fuel, (c.bound.run fuel).map (fun o => (o.result, o.computer.cpu)) =
      (c.run fuel).map fun o => (o.result.mapError (Cpu.Error.bound c.jumps), o.computer.cpu) := by
  constructor
  · intro n cpu
    exact Cpu.ticks_bound c.cpu.reset
  · intro fuel
    rw [run_eq_bound]
    cases hrun : c.run fuel with
    | none => rfl
    | some o =>
        obtain ⟨n, cpu, -, -, hcomputer⟩ := run_iff_ends.mp ⟨fuel, hrun⟩
        have hjumps : o.computer.jumps = c.jumps := by rw [hcomputer]; rfl
        simp only [Option.map_some, Outcome.bound, hjumps]
        rfl

end Computer

end Mailroom
