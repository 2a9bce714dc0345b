/-
Instructions on words.

Steps are natural numbers here: no sum of them is too large, and to look up a step that the
program does not have does no harm.  On words of 64 bits neither goes without saying.
`execute?` and `tick?` do the work of `execute` and `tick` on words.  They give up as soon as
a sum of steps does not fit a word or the program is asked for a step it does not have, and
this is no failure of the instruction.

`tick?_eq` says that a tick is not given up where words have room behind the current step.
How much room is needed follows from `Ticks.within`: from the reset state ticks lead to a
step of the program or to the one right behind it, because jumps are checked against the
program and everything else goes on by one from a step of the program.
-/
import Mailroom.Proofs.Cpu.Tick

namespace Mailroom

/-! ### Sums of words -/

namespace Numeral

/-- The sum of two words, if it is a word. -/
def sum? (m n : Nat) : Option Nat :=
  if m + n < unsignedBound then some (m + n) else none

/-- The sum of two words, or the greatest word if that is less. -/
def cappedSum (m n : Nat) : Nat :=
  min (m + n) (unsignedBound - 1)

theorem sum?_eq {m n : Nat} (h : m + n < unsignedBound) : sum? m n = some (m + n) :=
  if_pos h

end Numeral

open Numeral (unsignedBound sum? cappedSum)

/-! ### Instructions on words -/

namespace Cpu

/-- A change of the machine that may fail midway, or be given up, which is the failure `none`. -/
abbrev Attempt := EStateM (Option Error) Cpu

/-- A change that works with no step is never given up. -/
def attempt {α : Type} (action : Action α) : Attempt α :=
  EStateM.adaptExcept some action

/-- The step after this one. -/
def following? (pc : Nat) : Attempt Nat :=
  match sum? pc 1 with
  | some step => return step
  | none => throw none

def execute? (i : Instruction) (pc size : Nat) (jumps : JumpTable) : Attempt Nat := do
  match i with
  | .noOp => following? pc
  | .moveFromInbox =>
    attempt moveFromInbox
    following? pc
  | .moveToOutbox =>
    attempt moveToOutbox
    following? pc
  | .onTile action t =>
    attempt (work action t)
    following? pc
  | .jump condition destination =>
    if ← attempt (isTaken condition) then attempt (liftExcept (destination.resolve jumps size))
    else following? pc

/-- Once the machine has been found to run, the instruction has to be there. -/
def tick? (program : Program) (jumps : JumpTable) : Attempt Unit := do
  let cpu ← get
  match cpu.pc with
  | none => throw (some .halted)
  | some pc =>
    if pc < program.size ∧ cpu.halted = false then
      match program[pc]? with
      | none => throw none
      | some i =>
        let step ← execute? i pc program.size jumps
        -- This sum counts ticks and is no step.
        modify fun cpu => { cpu with pc := some step, steps := cpu.steps + 1 }
    else throw (some .halted)

/-- What an attempt has come to, unless it was given up. -/
def outcome? {α : Type} :
    EStateM.Result (Option Error) Cpu α → Option (EStateM.Result Error Cpu α)
  | .ok a cpu => some (.ok a cpu)
  | .error (some e) cpu => some (.error e cpu)
  | .error none _ => none

theorem outcome?_attempt {α : Type} (action : Action α) (cpu : Cpu) :
    outcome? (attempt action cpu) = some (action cpu) := by
  simp only [attempt, EStateM.adaptExcept]
  cases action cpu <;> rfl

theorem get_bind_attempt {α : Type} (f : Cpu → Attempt α) (cpu : Cpu) :
    (get >>= f) cpu = f cpu cpu := rfl

theorem attempt_get_bind {α : Type} (f : Cpu → Action α) (cpu : Cpu) :
    attempt (get >>= f) cpu = attempt (f cpu) cpu := rfl

theorem attempt_bind {α β : Type} (a : Action α) (f : α → Action β) :
    attempt (a >>= f) = attempt a >>= fun x => attempt (f x) := by
  funext cpu
  simp only [attempt, EStateM.adaptExcept, bind, EStateM.bind]
  cases a cpu <;> rfl

theorem following?_eq {pc : Nat} (h : pc + 1 < unsignedBound) :
    following? pc = attempt (return pc + 1) := by
  simp only [following?, Numeral.sum?_eq h]
  rfl

theorem execute?_eq {pc : Nat} (h : pc + 1 < unsignedBound) (i : Instruction) (size : Nat)
    (jumps : JumpTable) : execute? i pc size jumps = attempt (execute i pc size jumps) := by
  cases i with
  | noOp => exact following?_eq h
  | moveFromInbox | moveToOutbox | onTile action t =>
      simp only [execute?, execute, attempt_bind, following?_eq h]
  | jump condition destination =>
      simp only [execute?, execute, attempt_bind, following?_eq h]
      congr 1
      funext taken
      cases taken <;> rfl

/-- Where the machine runs, the instruction that a tick looks up is there. -/
theorem tick?_eq {cpu : Cpu} (h : ∀ pc, cpu.pc = some pc → pc + 1 < unsignedBound)
    (program : Program) (jumps : JumpTable) :
    tick? program jumps cpu = attempt (tick program jumps) cpu := by
  rw [tick?, tick, attempt_get_bind, get_bind_attempt]
  by_cases hrun : cpu.halted = false ∧ Inside program cpu
  · obtain ⟨hon, pc, hpc, hlt⟩ := hrun
    have hget : program[pc]? = some program[pc] := Array.getElem?_eq_getElem hlt
    have hnext : cpu.next? program = some (pc, program[pc]) :=
      next?_eq_some.mpr ⟨hon, hpc, hget⟩
    simp only [hpc, if_pos (And.intro hlt hon), hget, execute?_eq (h pc hpc), hnext, attempt_bind]
    rfl
  · have hnext : cpu.next? program = none := by
      rw [← Option.not_isSome_iff_eq_none, next?_isSome]
      exact hrun
    rw [hnext]
    cases hpc : cpu.pc with
    | none => rfl
    | some pc =>
        have hout : ¬ (pc < program.size ∧ cpu.halted = false) := by
          intro hin
          exact hrun ⟨hin.2, pc, hpc, hin.1⟩
        simp only [if_neg hout]
        rfl

/-! ### Where ticks lead -/

/-- From the reset state ticks lead to a step of the program or to the one right behind it. -/
theorem Ticks.within {program : Program} {jumps : JumpTable} {base cpu : Cpu} {n : Nat}
    (h : Ticks program jumps base.reset n cpu) :
    ∃ pc, cpu.pc = some pc ∧ pc ≤ program.size := by
  cases h with
  | zero => exact ⟨0, rfl, Nat.zero_le _⟩
  | succ _ htick =>
      obtain ⟨pc, i, s, hnext, hs, hleads⟩ := (ticked_of_advance (tick_eq_ok.mp htick)).moved
      obtain ⟨-, -, hi⟩ := next?_eq_some.mp hnext
      have hlt : pc < program.size := (Array.getElem?_eq_some_iff.mp hi).1
      refine ⟨s, hs, ?_⟩
      cases hleads with
      | next _ => exact hlt
      | landing _ hlands => exact Nat.le_of_lt (Destination.resolve_eq_ok.mp hlands).2

end Cpu

end Mailroom
