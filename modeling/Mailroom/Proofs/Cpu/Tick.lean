/-
What a tick can do, and where many of them lead.

`advance_eq_ok` takes a successful tick apart once: the machine was running, the
instruction had its effect, and then the step and the count were set.  The rest of the
registers is up to the instruction, but `effect_keeps` says that no instruction touches
the count, the step, the `halted` flag or the labels by itself or fills the inbox, and
`leads_of_effect` that the step which follows is one the program's control flow allows.

`Ticks` counts successful ticks.  It is the yardstick for runs: a run without anyone
interfering is such a sequence, and a run under control is compared with one.
-/
import Mailroom.Proofs.Cpu.Table

namespace Mailroom

/--
Step `s` can come after instruction `i` at step `pc`: the next one unless the
instruction always jumps, and the one a jump resolves to.
-/
inductive Instruction.Leads (i : Instruction) (pc size : Nat) (jumps : JumpTable) : Nat → Prop
  | next (h : ∀ d, i ≠ .jump .always d) : Leads i pc size jumps (pc + 1)
  | landing {condition : Condition} {d : Destination} {s : Nat} (hi : i = .jump condition d)
      (hs : d.resolve jumps size = .ok s) : Leads i pc size jumps s

namespace Cpu

/-! ### The instruction that comes next -/

theorem next?_eq_some {cpu : Cpu} {program : Program} {pc : Nat} {i : Instruction} :
    cpu.next? program = some (pc, i) ↔
      cpu.halted = false ∧ cpu.pc = some pc ∧ program[pc]? = some i := by
  unfold next?
  cases cpu.halted with
  | true => simp
  | false =>
      cases cpu.pc with
      | none => simp
      | some p =>
          simp only [Bool.false_eq_true, if_false, Option.bind_eq_bind, Option.bind_some,
            Option.bind_eq_some_iff, Option.some.injEq, Prod.mk.injEq, true_and]
          constructor
          · rintro ⟨j, hj, rfl, rfl⟩
            exact ⟨rfl, hj⟩
          · rintro ⟨rfl, hi⟩
            exact ⟨i, hi, rfl, rfl⟩

/-- The step of the machine is a step of the program. -/
def Inside (program : Program) (cpu : Cpu) : Prop :=
  ∃ pc, cpu.pc = some pc ∧ pc < program.size

/-- There is a next instruction exactly if the machine is on and its step in the program. -/
theorem next?_isSome {cpu : Cpu} {program : Program} :
    (cpu.next? program).isSome = true ↔ cpu.halted = false ∧ Inside program cpu := by
  rw [Option.isSome_iff_exists]
  constructor
  · rintro ⟨⟨pc, i⟩, h⟩
    obtain ⟨hh, hpc, hi⟩ := next?_eq_some.mp h
    have hlt : pc < program.size := (Array.getElem?_eq_some_iff.mp hi).1
    exact ⟨hh, pc, hpc, hlt⟩
  · rintro ⟨hh, pc, hpc, hlt⟩
    have hi : program[pc]? = some program[pc] := Array.getElem?_eq_getElem hlt
    exact ⟨(pc, program[pc]), next?_eq_some.mpr ⟨hh, hpc, hi⟩⟩

/-! ### What an instruction leaves alone -/

/-- What an instruction has no part in. -/
structure Kept (before after : Cpu) : Prop where
  pc : after.pc = before.pc
  steps : after.steps = before.steps
  halted : after.halted = before.halted
  labels : after.memory.labels = before.memory.labels
  /-- Values are taken from the inbox, and none are put there. -/
  inbox : after.inbox <:+ before.inbox

theorem effect_keeps {i : Instruction} {pc size s : Nat} {jumps : JumpTable} {cpu after : Cpu}
    (h : cpu.effect i pc size jumps = .ok (s, after)) : Kept cpu after := by
  cases effect_eq_ok.mp h with
  | moveFromInbox hinbox =>
      refine ⟨rfl, rfl, rfl, rfl, ?_⟩
      rw [hinbox]
      exact List.suffix_cons _ _
  | _ => exact ⟨rfl, rfl, rfl, rfl, List.suffix_refl _⟩

/-- The step after an instruction is one that its control flow allows. -/
theorem leads_of_effect {i : Instruction} {pc size s : Nat} {jumps : JumpTable}
    {cpu after : Cpu} (h : cpu.effect i pc size jumps = .ok (s, after)) :
    i.Leads pc size jumps s := by
  cases effect_eq_ok.mp h with
  | jump hnamed hlt => exact .landing rfl (Destination.resolve_eq_ok.mpr ⟨hnamed, hlt⟩)
  | jumpIfZero _ hnamed hlt => exact .landing rfl (Destination.resolve_eq_ok.mpr ⟨hnamed, hlt⟩)
  | jumpIfNegative _ _ hnamed hlt =>
      exact .landing rfl (Destination.resolve_eq_ok.mpr ⟨hnamed, hlt⟩)
  | _ => exact .next (by simp)

/-! ### A tick taken apart -/

/-- A successful tick: what ran, what it made of the machine, and what was counted. -/
theorem advance_eq_ok {program : Program} {jumps : JumpTable} {cpu after : Cpu} :
    cpu.advance program jumps = .ok after ↔
      ∃ pc i s worked, cpu.next? program = some (pc, i) ∧
        cpu.effect i pc program.size jumps = .ok (s, worked) ∧
        after = { worked with pc := some s, steps := worked.steps + 1 } := by
  constructor
  · intro h
    unfold advance at h
    cases hnext : cpu.next? program with
    | none => rw [hnext] at h; cases h
    | some next =>
        obtain ⟨pc, i⟩ := next
        rw [hnext] at h
        obtain ⟨⟨s, worked⟩, heff, h⟩ := bind_eq_ok.mp h
        cases h
        exact ⟨pc, i, s, worked, rfl, heff, rfl⟩
  · rintro ⟨pc, i, s, worked, hnext, heff, rfl⟩
    simp only [advance, hnext, heff]
    rfl

/-- What every successful tick does to the registers, whatever the instruction. -/
structure Ticked (program : Program) (jumps : JumpTable) (before after : Cpu) : Prop where
  steps : after.steps = before.steps + 1
  halted : after.halted = before.halted
  labels : after.memory.labels = before.memory.labels
  inbox : after.inbox <:+ before.inbox
  /-- The machine was at an instruction and went on to a step that can follow it. -/
  moved : ∃ pc i s, before.next? program = some (pc, i) ∧ after.pc = some s ∧
    i.Leads pc program.size jumps s

theorem ticked_of_advance {program : Program} {jumps : JumpTable} {cpu after : Cpu}
    (h : cpu.advance program jumps = .ok after) : Ticked program jumps cpu after := by
  obtain ⟨pc, i, s, worked, hnext, heff, rfl⟩ := advance_eq_ok.mp h
  have hkept := effect_keeps heff
  refine ⟨?_, hkept.halted, hkept.labels, hkept.inbox, pc, i, s, hnext, rfl, leads_of_effect heff⟩
  show worked.steps + 1 = cpu.steps + 1
  rw [hkept.steps]

theorem tick_eq_ok {program : Program} {jumps : JumpTable} {cpu after : Cpu} :
    tick program jumps cpu = .ok () after ↔ cpu.advance program jumps = .ok after := by
  rw [tick_settle]
  cases cpu.advance program jumps <;> simp [settle, Except.map]

/-- A failing tick leaves the machine as it was. -/
theorem tick_eq_error {program : Program} {jumps : JumpTable} {cpu after : Cpu} {e : Error} :
    tick program jumps cpu = .error e after ↔
      cpu.advance program jumps = .error e ∧ after = cpu := by
  rw [tick_settle]
  cases cpu.advance program jumps <;> simp [settle, Except.map, eq_comm]

/-! ### Many ticks -/

/-- `Ticks program jumps start n cpu`: from `start`, `n` ticks in a row succeed and end at `cpu`. -/
inductive Ticks (program : Program) (jumps : JumpTable) (start : Cpu) : Nat → Cpu → Prop
  | zero : Ticks program jumps start 0 start
  | succ {n : Nat} {cpu next : Cpu} (before : Ticks program jumps start n cpu)
      (h : tick program jumps cpu = .ok () next) : Ticks program jumps start (n + 1) next

namespace Ticks

variable {program : Program} {jumps : JumpTable} {start cpu : Cpu} {n : Nat}

/-- Ticks are counted. -/
theorem steps_eq (h : Ticks program jumps start n cpu) : cpu.steps = start.steps + n := by
  induction h with
  | zero => rfl
  | succ _ htick ih =>
      have hstep := (ticked_of_advance (tick_eq_ok.mp htick)).steps
      omega

/-- Ticks alone never halt the machine. -/
theorem halted_eq (h : Ticks program jumps start n cpu) : cpu.halted = start.halted := by
  induction h with
  | zero => rfl
  | succ _ htick ih =>
      have hkept := (ticked_of_advance (tick_eq_ok.mp htick)).halted
      rw [hkept, ih]

/-- From the reset state on there is always a current step. -/
theorem exists_pc {base : Cpu} (h : Ticks program jumps base.reset n cpu) :
    ∃ pc, cpu.pc = some pc := by
  cases h with
  | zero => exact ⟨0, rfl⟩
  | succ _ htick =>
      obtain ⟨_, _, s, -, hs, -⟩ := (ticked_of_advance (tick_eq_ok.mp htick)).moved
      exact ⟨s, hs⟩

/-- The machine after a number of ticks is determined. -/
theorem unique (h : Ticks program jumps start n cpu) :
    ∀ {other : Cpu}, Ticks program jumps start n other → cpu = other := by
  induction h with
  | zero => intro other hother; cases hother; rfl
  | succ _ htick ih =>
      intro other hother
      cases hother with
      | succ hbefore hother =>
          rw [← ih hbefore, htick] at hother
          cases hother
          rfl

end Ticks

end Cpu

end Mailroom
