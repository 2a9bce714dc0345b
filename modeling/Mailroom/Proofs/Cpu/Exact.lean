/-
A tick does what the instruction table says, or nothing.

There is no third case.  A tick that fails leaves the machine exactly as it was
(`failed_tick_changes_nothing`), although an instruction may look at the accumulator and follow a
pointer before it finds out that it must fail.  A tick that succeeds makes of the machine what
the row says, sets the step and counts itself, and it succeeds whenever a row fits
(`tick_follows_table`).
-/
import Mailroom.Proofs.Computer.Course

namespace Mailroom

namespace Cpu

/--
**An instruction that fails changes nothing.**  Neither registers nor boxes, neither tiles nor
labels are other than before.  A run that fails therefore ends with the machine that the
completed instructions have made, except that no step is left to execute.
-/
theorem failed_tick_changes_nothing :
    (∀ program jumps cpu e after, tick program jumps cpu = .error e after → after = cpu) ∧
    ∀ (c : Computer) fuel o e, c.run fuel = some o → o.result = .error e →
      ∃ n cpu, Ticks c.program c.jumps c.cpu.reset n cpu ∧
        tick c.program c.jumps cpu = .error e cpu ∧
        o.computer = { c with cpu := { cpu with pc := none } } := by
  constructor
  · intro program jumps cpu e after htick
    exact (tick_eq_error.mp htick).2
  · intro c fuel o e hrun hresult
    obtain ⟨n, cpu, hticks, hends, hcomputer⟩ := Computer.run_iff_ends.mp ⟨fuel, hrun⟩
    rw [hresult] at hends hcomputer
    cases hends with
    | failed hin htick he =>
        have hon : cpu.halted = false := hticks.halted_eq
        refine ⟨n, cpu, hticks, htick, ?_⟩
        rw [hcomputer, ← Computer.setPc_eq_ended hon]
        rfl

/-- Adds one to the tile behind a pointer, which is full already. -/
def brimming : Computer where
  cpu :=
    { inbox := [.letter 'A'],
      memory := { tiles := .ofList [(0, Value.int 5), (5, Value.int 9223372036854775807)] } }
  program := #[.moveFromInbox, .onTile .bumpUp ⟨.index 0, true⟩]

theorem brimming_changes_nothing :
    (∃ after, tick brimming.program {} { brimming.cpu with pc := some 1 }
        = .error (.overflow (.onTile .bumpUp)) after ∧
      after = { brimming.cpu with pc := some 1 }) ∧
    ∃ o n cpu, brimming.run 3 = some o ∧ o.result = .error (.overflow (.onTile .bumpUp)) ∧
      Ticks brimming.program brimming.jumps brimming.cpu.reset n cpu ∧
      o.computer = { brimming with cpu := { cpu with pc := none } } ∧
      o.computer.cpu.accumulator = some (.letter 'A') := by
  constructor
  · have htick : tick brimming.program {} { brimming.cpu with pc := some 1 }
        = .error (.overflow (.onTile .bumpUp)) _ := rfl
    exact ⟨_, htick, failed_tick_changes_nothing.1 _ _ _ _ _ htick⟩
  · obtain ⟨n, cpu, hticks, -, hcomputer⟩ := failed_tick_changes_nothing.2 brimming 3 _ _ rfl rfl
    exact ⟨_, n, cpu, rfl, rfl, hticks, hcomputer, rfl⟩

variable {program : Program} {jumps : JumpTable} {cpu : Cpu} {pc : Nat} {i : Instruction}

/--
**A tick carries out the instruction table exactly.**  It succeeds if and only if the table has a
row for the instruction that fits the machine.  Then the machine is changed as the row says, the
step is the one that follows, and one more tick is counted.
-/
theorem tick_follows_table (hon : cpu.halted = false) (hpc : cpu.pc = some pc)
    (hi : program[pc]? = some i) (after : Cpu) :
    tick program jumps cpu = .ok () after ↔
      ∃ s done, Row jumps program.size pc cpu i s done ∧
        after = { done with pc := some s, steps := cpu.steps + 1 } := by
  have hnext : cpu.next? program = some (pc, i) := next?_eq_some.mpr ⟨hon, hpc, hi⟩
  rw [tick_eq_ok, advance_eq_ok]
  constructor
  · rintro ⟨pc', i', s, done, hnext', heffect, rfl⟩
    rw [hnext] at hnext'
    cases hnext'
    refine ⟨s, done, effect_eq_ok.mp heffect, ?_⟩
    rw [(effect_keeps heffect).steps]
  · rintro ⟨s, done, hrow, rfl⟩
    have heffect := effect_eq_ok.mpr hrow
    refine ⟨pc, i, s, done, hnext, heffect, ?_⟩
    rw [(effect_keeps heffect).steps]

/-- Takes the distance of a letter from the one behind a pointer; the label of the jump that
comes after it is not declared. -/
def comparing : Computer where
  cpu :=
    { pc := some 0, accumulator := some (.letter 'C'),
      memory :=
        { tiles := .ofList [(3, Value.int 7), (7, Value.letter 'A')],
          labels := .ofList [("here", 3)] } }
  program := #[.onTile .subtract ⟨.label "here", true⟩, .jump .ifZero (.label "nowhere")]

/-- The distance is not zero, so the jump does not miss its label. -/
theorem comparing_follows_table :
    ∃ next last, tick comparing.program {} comparing.cpu = .ok () next ∧
      next = { comparing.cpu with pc := some 1, accumulator := some (.int 2), steps := 1 } ∧
      tick comparing.program {} next = .ok () last ∧
      last = { next with pc := some 2, steps := 2 } := by
  have hmeans : comparing.cpu.memory.Means ⟨.label "here", true⟩ 7 :=
    .indirect (.label (by decide) rfl) rfl (w := 7) rfl
  have hdistance : (2 : Int64).toInt = ('C'.toNat : Int) - 'A'.toNat := by decide
  have hfirst : tick comparing.program {} comparing.cpu = .ok () _ :=
    (tick_follows_table rfl rfl rfl _).mpr ⟨1, _, .subtractLetters rfl hmeans rfl hdistance, rfl⟩
  have hsecond : tick comparing.program {}
      { comparing.cpu with pc := some 1, accumulator := some (.int 2), steps := 1 } = .ok () _ :=
    (tick_follows_table rfl rfl rfl _).mpr ⟨2, _, .passIfZero rfl (by decide), rfl⟩
  exact ⟨_, _, hfirst, rfl, hsecond, rfl⟩

end Cpu

end Mailroom
