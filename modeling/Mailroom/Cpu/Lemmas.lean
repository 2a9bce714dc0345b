/-
What each part of an instruction does, as an equation.

The parts are written as a sequence of reads and changes.  Run on a machine, each of them
either completes with a new machine or fails and leaves the machine as it found it, and
the lemmas say which, so that nothing else has to look inside the parts again.
-/
import Mailroom.Cpu

namespace Mailroom.Cpu

theorem get_bind_run {α : Type} (f : Cpu → Action α) (cpu : Cpu) :
    (get >>= f) cpu = f cpu cpu := rfl

theorem liftExcept_run {α : Type} (r : Except Error α) (cpu : Cpu) :
    (liftExcept r : Action α) cpu = match r with
      | .ok a => .ok a cpu
      | .error e => .error e cpu := by
  cases r <;> rfl

theorem accumulated_run (cpu : Cpu) :
    accumulated cpu = match cpu.accumulator with
      | some v => .ok v cpu
      | none => .error .accumulatorEmpty cpu := by
  simp only [accumulated, get_bind_run]
  cases cpu.accumulator <;> rfl

theorem load_run (t : Tile) (cpu : Cpu) :
    load t cpu = match cpu.memory.get t with
      | .ok v => .ok v cpu
      | .error e => .error (.memory e) cpu := by
  simp only [load, get_bind_run, liftExcept_run]
  cases cpu.memory.get t <;> rfl

theorem store_run (t : Tile) (v : Value) (cpu : Cpu) :
    store t v cpu = match cpu.memory.set t v with
      | .ok memory => .ok () { cpu with memory }
      | .error e => .error (.memory e) cpu := by
  simp only [store, get_bind_run]
  simp only [bind, EStateM.bind, liftExcept_run]
  cases cpu.memory.set t v <;> rfl

theorem moveFromInbox_run (cpu : Cpu) :
    moveFromInbox cpu = match cpu.inbox with
      | [] => .error .inboxEmpty cpu
      | v :: rest => .ok () { cpu with inbox := rest, accumulator := some v } := by
  simp only [moveFromInbox, get_bind_run]
  cases cpu.inbox <;> rfl

theorem moveToOutbox_run (cpu : Cpu) :
    moveToOutbox cpu = match cpu.accumulator with
      | some v => .ok () { cpu with outbox := cpu.outbox.push v, accumulator := none }
      | none => .error .accumulatorEmpty cpu := by
  simp only [moveToOutbox, bind, EStateM.bind, accumulated_run]
  cases cpu.accumulator <;> rfl

end Mailroom.Cpu
