/-
The debugger never distorts the program it debugs.

Left alone, a machine goes from the reset state through the states that one successful
tick after the other leads to.  `OnTrack` says that the machine of a run under the
debugger is one of these, namely the one that its own step count names, up to the
`halted` flag.  The flag is the one register that the loop and the session use for
themselves.

Nothing that happens leads off the track.  A tick goes one state further, a stop only
touches the flag, and a restart goes back to the first state, because the session has
kept the inbox and the memory of the beginning and the reset clears all the rest.
-/
import Mailroom.Proofs.Debugger.Path

namespace Mailroom

namespace Debugger

open Cpu (Ticks)

/-- The computer of a run at some moment of it. -/
def Moment.computer : Moment → Computer
  | .turning l => l.computer
  | .menu _ c _ => c
  | .done o => o.computer

/-- `OnTrack start c cpu`: but for `halted`, the machine of `c` is `cpu`, and `cpu` is where as
many ticks as it has counted lead from the reset state of `start`. -/
structure OnTrack (start c : Computer) (cpu : Cpu) : Prop where
  program : c.program = start.program
  jumps : c.jumps = start.jumps
  ticks : Ticks start.program start.jumps start.cpu.reset c.cpu.steps cpu
  machine : c.cpu = { cpu with halted := c.cpu.halted }

/-- The step of the machine is no step of the program. -/
def AtEnd (program : Program) (cpu : Cpu) : Prop :=
  ∃ pc, cpu.pc = some pc ∧ program.size ≤ pc

namespace OnTrack

variable {start c : Computer} {cpu : Cpu}

theorem reset (start : Computer) :
    OnTrack start { start with cpu := start.cpu.reset } start.cpu.reset :=
  ⟨rfl, rfl, .zero, rfl⟩

theorem setHalted (h : OnTrack start c cpu) (halted : Bool) :
    OnTrack start (c.setHalted halted) cpu :=
  ⟨h.program, h.jumps, h.ticks, by rw [Computer.setHalted, h.machine]⟩

/-- As long as it is not halted the machine is exactly the one on the track. -/
theorem machine_eq (h : OnTrack start c cpu) (hon : c.cpu.halted = false) : c.cpu = cpu := by
  have hcpu : cpu.halted = false := h.ticks.halted_eq
  rw [h.machine, hon, ← hcpu]

/-- A tick of the computer is a tick on the track. -/
theorem tick_eq (h : OnTrack start c cpu) (hon : c.cpu.halted = false) :
    Cpu.tick c.program c.jumps c.cpu = Cpu.tick start.program start.jumps cpu := by
  rw [h.program, h.jumps, h.machine_eq hon]

theorem tick {next : Cpu} (h : OnTrack start c cpu) (hon : c.cpu.halted = false)
    (htick : Cpu.tick c.program c.jumps c.cpu = .ok () next) :
    OnTrack start { c with cpu := next } next := by
  have hsteps : next.steps = c.cpu.steps + 1 :=
    (Cpu.ticked_of_advance (Cpu.tick_eq_ok.mp htick)).steps
  refine ⟨h.program, h.jumps, ?_, rfl⟩
  show Ticks start.program start.jumps start.cpu.reset next.steps next
  rw [hsteps]
  exact .succ h.ticks (by rw [← h.tick_eq hon, htick])

/-- A restart with the inbox and the memory of the beginning goes back to the beginning. -/
theorem restart (h : OnTrack start c cpu) :
    OnTrack start { c with cpu := c.cpu.restart start.cpu.inbox start.cpu.memory }
      start.cpu.reset :=
  ⟨h.program, h.jumps, .zero, rfl⟩

end OnTrack

/-! ### Nothing leads off the track -/

/-- The session keeps the inbox and the memory that the run began with. -/
structure Remembers (start : Computer) (s : Session) : Prop where
  inbox : s.inbox = start.cpu.inbox
  memory : s.memory = start.cpu.memory

theorem Remembers.opening {start : Computer} {s : Session} (h : Remembers start s) (why : Stop)
    (c : Computer) : Remembers start (s.opening why c) := by
  constructor
  · rw [Session.opening_inbox, h.inbox]
  · rw [Session.opening_memory, h.memory]

/-- What holds at every moment of a run. -/
def Tracked (start : Computer) : Moment → Prop
  | .turning l => Remembers start l.state ∧ ∃ cpu, OnTrack start l.computer cpu ∧
      -- The loop sets the flag only when the inbox has run dry.
      (l.computer.cpu.halted = true →
        Cpu.tick start.program start.jumps cpu = .error .inboxEmpty cpu)
  | .menu why c s => Remembers start s ∧ (why = .break → c.cpu.halted = false) ∧
      ∃ cpu, OnTrack start c cpu
  | .done o => ∃ cpu, OnTrack start o.computer cpu ∧
      ∀ e, o.result = .error e → Cpu.tick start.program start.jumps cpu = .error e cpu

theorem tracked_opening (d : Debugger) : Tracked d.computer d.opening := by
  refine ⟨⟨rfl, rfl⟩, _, OnTrack.reset d.computer, ?_⟩
  intro h
  cases h

theorem tracked_step {start : Computer} {m m' : Moment} {e : Happening} (h : Tracked start m)
    (hstep : Step m e m') : Tracked start m' := by
  cases hstep with
  | finish hrun hc =>
      obtain ⟨hkeeps, cpu, htrack, -⟩ := h
      subst hc
      refine ⟨hkeeps.opening _ _, ?_, cpu, htrack.setHalted true⟩
      intro hwhy
      cases hwhy
  | «break» hrun hask hat =>
      obtain ⟨hkeeps, cpu, htrack, -⟩ := h
      refine ⟨hkeeps.opening _ _, ?_, cpu, htrack⟩
      intro _
      exact (Computer.isRunning_iff.mp hrun).1
  | tick hrun hask htick =>
      obtain ⟨hkeeps, cpu, htrack, -⟩ := h
      have hnext := htrack.tick (Computer.isRunning_iff.mp hrun).1 htick
      refine ⟨hkeeps, _, hnext, ?_⟩
      intro hhalted
      have hoff : _ = false := hnext.ticks.halted_eq
      rw [hoff] at hhalted
      cases hhalted
  | dry hrun hask htick =>
      obtain ⟨hkeeps, cpu, htrack, -⟩ := h
      have hon := (Computer.isRunning_iff.mp hrun).1
      rw [htrack.tick_eq hon, htrack.machine_eq hon] at htick
      refine ⟨hkeeps, cpu, htrack.setHalted true, ?_⟩
      intro _
      exact htick
  | fail hrun hask htick he =>
      obtain ⟨hkeeps, cpu, htrack, -⟩ := h
      have hon := (Computer.isRunning_iff.mp hrun).1
      rw [htrack.tick_eq hon, htrack.machine_eq hon] at htick
      refine ⟨cpu, htrack, ?_⟩
      intro e' he'
      cases he'
      exact htick
  | ignored console hscript hmeant =>
      obtain ⟨⟨hinbox, hmemory⟩, hbreak, htrack⟩ := h
      exact ⟨⟨hinbox, hmemory⟩, hbreak, htrack⟩
  | stayed console hscript hmeant hrestart hcontinue hquit hstep =>
      obtain ⟨⟨hinbox, hmemory⟩, hbreak, htrack⟩ := h
      exact ⟨⟨hinbox, hmemory⟩, hbreak, htrack⟩
  | restarted console hscript hmeant =>
      obtain ⟨⟨hinbox, hmemory⟩, -, cpu, htrack⟩ := h
      have hagain := htrack.restart
      rw [← hinbox, ← hmemory] at hagain
      refine ⟨⟨hinbox, hmemory⟩, ?_, start.cpu.reset, hagain⟩
      intro _
      rfl
  | @continued why c s line console hscript hmeant hwhy =>
      obtain ⟨⟨hinbox, hmemory⟩, hbreak, cpu, htrack⟩ := h
      refine ⟨⟨hinbox, hmemory⟩, cpu, htrack, ?_⟩
      intro hhalted
      cases why with
      | «break» =>
          have hon := hbreak rfl
          rw [hon] at hhalted
          cases hhalted
      | finished => exact absurd ⟨rfl, hhalted⟩ hwhy
  | stepped console hscript hmeant hhalted =>
      obtain ⟨⟨hinbox, hmemory⟩, -, cpu, htrack⟩ := h
      refine ⟨⟨hinbox, hmemory⟩, cpu, htrack, ?_⟩
      intro hon
      rw [hhalted] at hon
      cases hon
  | closed | ended | quit =>
      obtain ⟨-, -, cpu, htrack⟩ := h
      refine ⟨cpu, htrack, ?_⟩
      intro e he
      cases he

theorem tracked_of_trace {d : Debugger} {es : List Happening} {m : Moment}
    (h : d.Trace es m) : Tracked d.computer m := by
  induction h with
  | nil => exact tracked_opening d
  | snoc _ hstep ih => exact tracked_step ih (step_view hstep)

theorem onTrack_of_tracked {start : Computer} {m : Moment} (h : Tracked start m) :
    ∃ cpu, OnTrack start m.computer cpu := by
  cases m with
  | turning l =>
      obtain ⟨-, cpu, htrack, -⟩ := h
      exact ⟨cpu, htrack⟩
  | menu why c s => exact h.2.2
  | done o =>
      obtain ⟨cpu, htrack, -⟩ := h
      exact ⟨cpu, htrack⟩

/-! ### The `halted` flag at a menu

Between a stop and the end of its menu lines are answered and nothing else happens.  The
flag says why the run stopped, until a restart clears it.
-/

/-- `Since es why answers`: the last stop in `es` was for the reason `why`, and all that has
happened since then is that lines were answered. -/
def Since (es : List Happening) (why : Stop) (answers : List Happening) : Prop :=
  ∃ earlier c s, es = earlier ++ .stopped why c s :: answers ∧
    ∀ e ∈ answers, ∃ line command, e = .answered line command

theorem Since.answered {es answers : List Happening} {why : Stop} (h : Since es why answers)
    (line : String) (command : Option Command) :
    Since (es ++ [.answered line command]) why (answers ++ [.answered line command]) := by
  obtain ⟨earlier, c, s, rfl, hall⟩ := h
  refine ⟨earlier, c, s, by simp, ?_⟩
  intro e he
  rcases List.mem_append.mp he with he | he
  · exact hall e he
  · exact ⟨line, command, List.mem_singleton.mp he⟩

/-- A restart is among the answers. -/
def Restarted (answers : List Happening) : Prop :=
  ∃ line, .answered line (some .restart) ∈ answers

theorem restarted_append {answers : List Happening} {line : String} {command : Option Command} :
    Restarted (answers ++ [.answered line command]) ↔
      Restarted answers ∨ command = some .restart := by
  constructor
  · rintro ⟨line', hmem⟩
    rcases List.mem_append.mp hmem with hmem | hmem
    · exact Or.inl ⟨line', hmem⟩
    · cases List.mem_singleton.mp hmem
      exact Or.inr rfl
  · rintro (⟨line', hmem⟩ | rfl)
    · exact ⟨line', List.mem_append_left _ hmem⟩
    · exact ⟨line, by simp⟩

/-- At a menu the flag is set exactly after a stop at the end without a restart since. -/
def Flagged (es : List Happening) : Moment → Prop
  | .menu why c _ => ∃ answers, Since es why answers ∧
      (c.cpu.halted = true ↔ why = .finished ∧ ¬ Restarted answers)
  | .turning _ | .done _ => True

theorem flagged_step {es : List Happening} {m m' : Moment} {e : Happening} (h : Flagged es m)
    (hstep : Step m e m') : Flagged (es ++ [e]) m' := by
  have hfresh : ¬ Restarted [] := by
    rintro ⟨line, hmem⟩
    cases hmem
  cases hstep with
  | finish hrun hc =>
      subst hc
      refine ⟨[], ⟨es, _, _, rfl, by simp⟩, ?_, ?_⟩
      · intro _
        exact ⟨rfl, hfresh⟩
      · intro _
        rfl
  | «break» hrun hask hat =>
      refine ⟨[], ⟨es, _, _, rfl, by simp⟩, ?_, ?_⟩
      · intro hhalted
        rw [(Computer.isRunning_iff.mp hrun).1] at hhalted
        cases hhalted
      · intro hwhy
        cases hwhy.1
  | ignored console hscript hmeant =>
      obtain ⟨answers, hsince, hiff⟩ := h
      refine ⟨_, hsince.answered _ _, hiff.trans ?_⟩
      simp [restarted_append]
  | stayed console hscript hmeant hrestart hcontinue hquit hstep =>
      obtain ⟨answers, hsince, hiff⟩ := h
      refine ⟨_, hsince.answered _ _, hiff.trans ?_⟩
      simp [restarted_append, hrestart]
  | restarted console hscript hmeant =>
      obtain ⟨answers, hsince, -⟩ := h
      refine ⟨_, hsince.answered _ _, ?_, ?_⟩
      · intro hhalted
        have hoff : false = true := hhalted
        cases hoff
      · intro hwhy
        exact absurd (restarted_append.mpr (Or.inr rfl)) hwhy.2
  | tick | dry | fail | closed | continued | ended | stepped | quit => trivial

theorem flagged_of_trace {d : Debugger} {es : List Happening} {m : Moment}
    (h : d.Trace es m) : Flagged es m := by
  induction h with
  | nil => trivial
  | snoc _ hstep ih => exact flagged_step ih (step_view hstep)

/-- At a stop at the end the machine has left the program or waits for an empty inbox. -/
theorem finished_of_trace {d : Debugger} {es : List Happening} {m : Moment} {c : Computer}
    {s : Session} (h : d.Trace (es ++ [.stopped .finished c s]) m) :
    ∃ cpu, OnTrack d.computer c cpu ∧ (AtEnd d.computer.program cpu ∨
      Cpu.tick d.computer.program d.computer.jumps cpu = .error .inboxEmpty cpu) := by
  obtain ⟨m₁, hbefore, hstep⟩ := Path.last h
  have htracked := tracked_of_trace hbefore
  cases step_view hstep with
  | @finish l _ hrun hc =>
      obtain ⟨-, cpu, htrack, hdry⟩ := htracked
      subst hc
      refine ⟨cpu, htrack.setHalted true, ?_⟩
      cases hhalted : l.computer.cpu.halted with
      | true => exact Or.inr (hdry hhalted)
      | false =>
          obtain ⟨pc, hpc⟩ := htrack.ticks.exists_pc
          refine Or.inl ⟨pc, hpc, ?_⟩
          rw [← Nat.not_lt, ← htrack.program]
          intro hlt
          have hrunning : l.computer.isRunning = true := by
            refine Computer.isRunning_iff.mpr ⟨hhalted, pc, ?_, hlt⟩
            rw [htrack.machine_eq hhalted, hpc]
          rw [hrunning] at hrun
          cases hrun

/--
**The debugger never distorts the program.**

At every moment of a run, at each line of a menu in particular, the machine is the one
that the undisturbed run has after as many ticks, up to `halted`.  At a menu the flag is
set exactly if the run stopped at the end and was not restarted since, and at the end
the undisturbed machine has left the program or finds its inbox empty.  What the run
returns is such a machine without a current step, and the error it returns, if any, is
the one that the undisturbed machine fails with at that point.
-/
theorem run_never_distorted (d : Debugger) :
    (∀ es m, d.Trace es m → ∃ cpu, OnTrack d.computer m.computer cpu) ∧
    (∀ es why c s, d.Trace es (.menu why c s) → ∃ answers, Since es why answers ∧
      (c.cpu.halted = true ↔ why = .finished ∧ ¬ Restarted answers)) ∧
    (∀ es c s m, d.Trace (es ++ [.stopped .finished c s]) m →
      ∃ cpu, OnTrack d.computer c cpu ∧ (AtEnd d.computer.program cpu ∨
        Cpu.tick d.computer.program d.computer.jumps cpu = .error .inboxEmpty cpu)) ∧
    (∀ fuel result d', d.run fuel = some (result, d') → d'.computer.cpu.pc = none ∧
      ∃ cpu, OnTrack d.computer (d'.computer.setPc cpu.pc) cpu ∧
        ∀ e, result = .error e →
          Cpu.tick d.computer.program d.computer.jumps cpu = .error e cpu) := by
  refine ⟨?_, ?_, ?_, ?_⟩
  · intro es m h
    exact onTrack_of_tracked (tracked_of_trace h)
  · intro es why c s h
    exact flagged_of_trace h
  · intro es c s m h
    exact finished_of_trace h
  · intro fuel result d' h
    obtain ⟨es, o, htrace, rfl, rfl⟩ := exists_trace_of_run h
    obtain ⟨cpu, htrack, herror⟩ := tracked_of_trace htrace
    refine ⟨rfl, cpu, ⟨htrack.program, htrack.jumps, htrack.ticks, ?_⟩, herror⟩
    show { o.computer.cpu with pc := cpu.pc } = { cpu with halted := o.computer.cpu.halted }
    rw [htrack.machine]

/-- Takes everything from the inbox to the outbox, with a detour. -/
def echo : Debugger where
  computer := { program := #[.moveFromInbox, .moveToOutbox, .jump .always (.step 0)],
                cpu := { inbox := [.int 1, .letter 'A'] } }
  session := { console := { script := ["s", "s", "r", "c", "o", "c"] } }

theorem echo_never_distorted :
    ∃ d' cpu, echo.run 20 = some (.ok (), d') ∧ cpu.outbox = #[.int 1, .letter 'A'] ∧
      OnTrack echo.computer (d'.computer.setPc cpu.pc) cpu := by
  obtain ⟨-, -, -, hruns⟩ := run_never_distorted echo
  have hrun : ∃ d', echo.run 20 = some (.ok (), d') ∧
      d'.computer.cpu.outbox = #[.int 1, .letter 'A'] := ⟨_, rfl, rfl⟩
  obtain ⟨d', hreturns, houtbox⟩ := hrun
  obtain ⟨-, cpu, htrack, -⟩ := hruns 20 _ d' hreturns
  refine ⟨d', cpu, hreturns, ?_, htrack⟩
  rw [← houtbox]
  exact (congrArg Cpu.outbox htrack.machine).symm

end Debugger

end Mailroom
