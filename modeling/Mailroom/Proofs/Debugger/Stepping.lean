/-
Stepping executes one instruction.

A step cannot run one instruction and stop, for the loop stops only where a breakpoint
is.  So the session sets temporary breakpoints beforehand, at each step that can come
next, and finds out by itself which these are: both ways of a conditional jump, and
nothing for a jump that is going to fail.  `mem_armNext` says that none is missing of
those that the control flow of the program allows, and a tick leads to one of them.

A temporary breakpoint must not outlive its step, whether or not the run came by.  Every
stop forgets them all, so a menu never opens with one.
-/
import Mailroom.Proofs.Debugger.Stretch

namespace Mailroom

namespace Debugger

open Moment

/-! ### What is armed -/

namespace Session

theorem mem_arm {s : Session} {step t : Nat} :
    t ∈ (s.arm step).temporary ↔ step = t ∨ t ∈ s.temporary := by
  simp [arm]

theorem armDestination_of_ok {s : Session} {c : Computer} {d : Destination} {t : Nat}
    (h : d.resolve c.jumps c.program.size = .ok t) : s.armDestination c d = s.arm t := by
  simp only [armDestination, h]

/-- All steps that the control flow allows next are armed. -/
theorem mem_armNext {s : Session} {c : Computer} {pc t : Nat} {i : Instruction}
    (hnext : c.cpu.next? c.program = some (pc, i)) (ht : i.Leads pc c.program.size c.jumps t) :
    t ∈ (s.armNext c).temporary := by
  obtain ⟨-, hpc, hi⟩ := Cpu.next?_eq_some.mp hnext
  have hcurrent : c.currentInstruction? = some i := by
    simp only [Computer.currentInstruction?, hpc]
    exact hi
  simp only [armNext, hpc, hcurrent]
  cases ht with
  | next hfalls =>
      cases i with
      | jump condition d =>
          cases condition with
          | always => exact absurd rfl (hfalls d)
          | ifZero | ifNegative => exact mem_arm.mpr (Or.inl rfl)
      | noOp | moveFromInbox | moveToOutbox | onTile _ _ => exact mem_arm.mpr (Or.inl rfl)
  | @landing condition d _ hi ht =>
      subst hi
      have harmed : t ∈ (s.armDestination c d).temporary := by
        rw [armDestination_of_ok ht]
        exact mem_arm.mpr (Or.inl rfl)
      cases condition with
      | always => exact harmed
      | ifZero | ifNegative => exact mem_arm.mpr (Or.inr harmed)

end Session

/-! ### A step -/

/-- The command to step resumes the run with all that can come next armed. -/
theorem step_of_stepped (why : Stop) {c : Computer} {s : Session} {line : String}
    {rest : List String} (hscript : s.console.script = line :: rest)
    (hmeant : s.meant line = some .step) (hon : c.cpu.halted = false) :
    ∃ armed : Session, armed.temporary = (s.armNext c).temporary ∧
      armed.breakpoints = s.breakpoints ∧
      (Moment.menu why c s).step =
        some (.answered line (some .step), .turning ⟨c, armed, true⟩) := by
  have hstep := step_of_line why c hscript
  rw [hmeant] at hstep
  generalize answer why c (s.read (some line) rest) line = m at hstep
  cases step_view hstep with
  | stepped console _ _ _ =>
      exact ⟨{ s with console, lastCommand := some .step,
                      temporary := (s.armNext c).temporary }, rfl, rfl, hstep⟩
  | stayed _ _ _ _ _ _ hhalted =>
      rw [hhalted rfl] at hon
      cases hon

/-- From `m` on `es` happen, then the run stops, and the menu opens with these breakpoints and no
temporary one. -/
def Reopens (m : Moment) (es : List Happening) (why : Stop) (c : Computer)
    (breakpoints : Std.ExtTreeSet Nat) : Prop :=
  ∃ s, Path m (es ++ [.stopped why c s]) (.menu why c s) ∧ s.temporary = ∅ ∧
    s.breakpoints = breakpoints

theorem reopens_of_stop {m m' : Moment} {es : List Happening} {why : Stop} {c : Computer}
    {s : Session} (h : Path m es m') (hstop : m'.step = some (stop why c s)) :
    Reopens m es why c s.breakpoints :=
  ⟨s.opening why c, .snoc h hstop, s.opening_temporary why c, s.opening_breakpoints why c⟩

section Attempt

variable {m : Moment} {es : List Happening} {c : Computer} {s : Session} {cpu : Cpu}

/-- A tick to a step that is armed is followed by a stop there. -/
theorem reopens_of_tick (h : Path m es (.turning ⟨c, s, true⟩)) (hrun : c.isRunning = true)
    (htick : Cpu.tick c.program c.jumps c.cpu = .ok () cpu)
    (harmed : ∀ pc i t, c.cpu.next? c.program = some (pc, i) →
      i.Leads pc c.program.size c.jumps t → t ∈ s.temporary) :
    (Cpu.Inside c.program cpu → Reopens m (es ++ [.attempted c s (.ok ())])
      .break { c with cpu } s.breakpoints) ∧
    (¬ Cpu.Inside c.program cpu → Reopens m (es ++ [.attempted c s (.ok ())])
      .finished (Computer.setHalted { c with cpu } true) s.breakpoints) := by
  have hpath := Path.snoc h (step_of_tick (l := ⟨c, s, true⟩) hrun (Or.inl rfl) htick)
  have hticked := Cpu.ticked_of_advance (Cpu.tick_eq_ok.mp htick)
  have hon : cpu.halted = false := hticked.halted.trans (Computer.isRunning_iff.mp hrun).1
  obtain ⟨pc, i, t, hnext, ht, hleads⟩ := hticked.moved
  constructor
  · intro hin
    refine reopens_of_stop hpath (step_of_breakpoint ?_ rfl ?_)
    · exact Computer.isRunning_iff.mpr ⟨hon, hin⟩
    · exact Session.shouldStop_eq_true.mpr ⟨t, ht, Or.inr (harmed pc i t hnext hleads)⟩
  · intro hout
    exact reopens_of_stop hpath (step_of_end (Computer.not_running_of_outside hout))

/-- An empty inbox is followed by the stop at the end. -/
theorem reopens_of_dry (h : Path m es (.turning ⟨c, s, true⟩)) (hrun : c.isRunning = true)
    (htick : Cpu.tick c.program c.jumps c.cpu = .error .inboxEmpty cpu) :
    Reopens m (es ++ [.attempted c s (.error .inboxEmpty)]) .finished (c.setHalted true)
      s.breakpoints := by
  have hpath := Path.snoc h (step_of_dry (l := ⟨c, s, true⟩) hrun (Or.inl rfl) htick)
  exact reopens_of_stop hpath (step_of_end (Computer.not_running_of_halted rfl))

/-- After any other failure the run is over. -/
theorem done_of_failure {e : Cpu.Error} (h : Path m es (.turning ⟨c, s, true⟩))
    (hrun : c.isRunning = true) (htick : Cpu.tick c.program c.jumps c.cpu = .error e cpu)
    (he : e ≠ .inboxEmpty) :
    Path m (es ++ [.attempted c s (.error e)]) (.done ⟨.error e, c, s⟩) := by
  have hstep := step_of_failure (l := ⟨c, s, true⟩) hrun (Or.inl rfl) htick he
  exact Path.snoc h hstep

end Attempt

/--
**A step executes exactly one instruction.**

At a menu whose machine has not halted, the command to step is followed by one attempt,
and nothing comes in between.  A tick that succeeds is followed by a stop right where it
leads, a tick that finds the inbox empty by the stop at the end, and any other failure is
what the run returns.  Outside the program nothing is attempted, and the run stops at
the end.  No temporary breakpoint is left over then or at any other menu, so a run that
is continued stops only at breakpoints that stay.
-/
theorem step_executes_one {d : Debugger} {es : List Happening} {why : Stop} {c : Computer}
    {s : Session} {line : String} {rest : List String} (h : d.Trace es (.menu why c s))
    (hscript : s.console.script = line :: rest) (hmeant : s.meant line = some .step)
    (hon : c.cpu.halted = false) :
    (∃ armed : Session, armed.breakpoints = s.breakpoints ∧
      (Cpu.Inside c.program c.cpu →
        (∀ cpu, Cpu.tick c.program c.jumps c.cpu = .ok () cpu →
          (Cpu.Inside c.program cpu → Reopens (.menu why c s)
            [.answered line (some .step), .attempted c armed (.ok ())]
            .break { c with cpu } s.breakpoints) ∧
          (¬ Cpu.Inside c.program cpu → Reopens (.menu why c s)
            [.answered line (some .step), .attempted c armed (.ok ())]
            .finished (Computer.setHalted { c with cpu } true) s.breakpoints)) ∧
        (∀ cpu, Cpu.tick c.program c.jumps c.cpu = .error .inboxEmpty cpu →
          Reopens (.menu why c s)
            [.answered line (some .step), .attempted c armed (.error .inboxEmpty)]
            .finished (c.setHalted true) s.breakpoints) ∧
        (∀ e cpu, Cpu.tick c.program c.jumps c.cpu = .error e cpu → e ≠ .inboxEmpty →
          Path (.menu why c s)
            [.answered line (some .step), .attempted c armed (.error e)]
            (.done ⟨.error e, c, armed⟩) ∧
          (∃ fuel d', d.run fuel = some (.error e, d')) ∧
          ∀ fuel result d', d.run fuel = some (result, d') → result = .error e)) ∧
      (¬ Cpu.Inside c.program c.cpu → Reopens (.menu why c s)
        [.answered line (some .step)] .finished (c.setHalted true) s.breakpoints)) ∧
    (∀ es' why' c' s', d.Trace es' (.menu why' c' s') → s'.temporary = ∅) ∧
    (∀ es₁ line' es₂ c' s' m, Quiet es₂ →
      d.Trace (es₁ ++ .answered line' (some .continue) :: (es₂ ++ [.stopped .break c' s'])) m →
      ∃ pc, c'.cpu.pc = some pc ∧ pc ∈ s'.breakpoints) := by
  obtain ⟨armed, htemporary, hbreakpoints, hstep⟩ :=
    step_of_stepped why hscript hmeant hon
  have hfirst := Path.single hstep
  refine ⟨⟨armed, hbreakpoints, ?_, ?_⟩, ?_, ?_⟩
  · intro hin
    have hrun : c.isRunning = true := Computer.isRunning_iff.mpr ⟨hon, hin⟩
    rw [← hbreakpoints]
    refine ⟨?_, ?_, ?_⟩
    · intro cpu htick
      refine reopens_of_tick hfirst hrun htick ?_
      intro pc i t hnext hleads
      rw [htemporary]
      exact Session.mem_armNext hnext hleads
    · intro cpu htick
      exact reopens_of_dry hfirst hrun htick
    · intro e cpu htick he
      have hdone := done_of_failure hfirst hrun htick he
      have htrace : d.Trace _ (.done ⟨.error e, c, armed⟩) := Path.append h hdone
      obtain ⟨fuel, hfuel⟩ := exists_run_of_trace htrace
      refine ⟨hdone, ⟨fuel, _, hfuel⟩, ?_⟩
      intro fuel' result d' hreturns
      exact (run_eq_of_trace htrace hreturns).1
  · intro hout
    rw [← hbreakpoints]
    have hend : c.isRunning = false := Computer.not_running_of_outside hout
    exact reopens_of_stop hfirst (step_of_end (l := ⟨c, armed, true⟩) hend)
  · intro es' why' c' s' h'
    exact forgotten_of_trace h'
  · intro es₁ line' es₂ c' s' m hquiet h'
    obtain ⟨_, _, _, -, -, -, -, hwhy⟩ := next_stop hquiet h'
    obtain ⟨pc, -, -, hpc, hset⟩ := hwhy.resolve_left (by simp)
    exact ⟨pc, hpc, hset⟩

/-- Goes round in a circle of one instruction. -/
def circle : Debugger where
  computer := { program := #[.jump .always (.step 0)] }
  session := { console := { script := ["s", "c"] } }

theorem circle_steps :
    ∃ c s armed cpu, circle.Trace [.stopped .break c s] (.menu .break c s) ∧
      Cpu.tick c.program c.jumps c.cpu = .ok () cpu ∧
      Reopens (.menu .break c s) [.answered "s" (some .step), .attempted c armed (.ok ())]
        .break { c with cpu } s.breakpoints := by
  have hopens : ∃ c s, circle.opening.step = some (.stopped .break c s, .menu .break c s) ∧
      s.console.script = ["s", "c"] ∧ s.meant "s" = some .step ∧ c.cpu.halted = false ∧
      c.program.size = 1 ∧ c.cpu.pc = some 0 ∧
      ∃ cpu, Cpu.tick c.program c.jumps c.cpu = .ok () cpu ∧ cpu.pc = some 0 :=
    ⟨_, _, rfl, rfl, rfl, rfl, rfl, rfl, _, rfl, rfl⟩
  obtain ⟨c, s, hstep, hscript, hmeant, hon, hsize, hpc, cpu, htick, hback⟩ := hopens
  have htrace : circle.Trace [.stopped .break c s] (.menu .break c s) := Path.single hstep
  obtain ⟨⟨armed, -, hin, -⟩, -, -⟩ := step_executes_one htrace hscript hmeant hon
  have hlt : 0 < c.program.size := by omega
  have hstops := (hin ⟨0, hpc, hlt⟩).1 cpu htick
  exact ⟨c, s, armed, cpu, htrace, htick, hstops.1 ⟨0, hback, hlt⟩⟩

end Debugger

end Mailroom
