/-
A run under the debugger, one thing at a time.

The loop hands control to the session for a whole stop, and the session reads as many
lines as it likes before it gives control back.  What happens in between cannot be seen
from the loop.  A `Moment` is therefore either the loop about to go round, or the menu
about to read its next line, or the end of the run, and `step` leads from one moment to
the next and says what happened on the way: a stop, an attempted instruction, a line
that was answered.

`step_view` is the case analysis that everything else goes by.  It lists all that can
happen at a moment, with what it does to the computer and to the session and what it
leaves alone.
-/
import Mathlib.Tactic.Set
import Mailroom.Proofs.Computer.Turn
import Mailroom.Proofs.Debugger.Session

namespace Mailroom

namespace Debugger

/-- Something that happens in a run, with what was there when it happened. -/
inductive Happening where
  /-- The run stopped; the computer and the session are those at the open menu. -/
  | stopped (why : Stop) (computer : Computer) (session : Session)
  /-- An instruction was attempted by this computer, with this result. -/
  | attempted (computer : Computer) (session : Session) (result : Except Cpu.Error Unit)
  /-- A line was read; the command is the one it made the menu carry out, if any. -/
  | answered (line : String) (command : Option Command)
  /-- A line was asked for and there was none left. -/
  | closed

/-- Where a run is. -/
inductive Moment where
  /-- The loop is about to go round. -/
  | turning (loop : Loop Session)
  /-- The menu is open and about to read a line. -/
  | menu (why : Stop) (computer : Computer) (session : Session)
  | done (outcome : Outcome Session)

namespace Moment

/-- The run stops and the menu opens. -/
def stop (why : Stop) (c : Computer) (s : Session) : Happening × Moment :=
  let s := s.opening why c
  (.stopped why c s, .menu why c s)

/-- How the run goes on when the session gives control back. -/
def resumed (why : Stop) (answer : Resume) (c : Computer) (s : Session) : Moment :=
  match answer with
  | .quit => .done ⟨.ok (), c, s⟩
  | .continue =>
    if why = .finished ∧ c.cpu.halted = true then .done ⟨.ok (), c, s⟩
    else .turning ⟨c, s, true⟩

/-- The moment after a turn of the loop that went by without a stop. -/
def ofTurn : Turn Session → Moment
  | .next l => .turning l
  | .over o => .done o

/-- The result of the next instruction of a computer. -/
def tickResult (c : Computer) : Except Cpu.Error Unit :=
  match Cpu.tick c.program c.jumps c.cpu with
  | .ok _ _ => .ok ()
  | .error e _ => .error e

/-- The moment after a line has been read and carried out. -/
def answer (why : Stop) (c : Computer) (s : Session) (line : String) : Moment :=
  let r := s.respond c line
  let s := r.session.write r.lines
  match r.resume with
  | some answer => resumed why answer r.computer s
  | none => .menu why r.computer s

/-- What happens next, and the moment after it; nothing once the run is over. -/
def step : Moment → Option (Happening × Moment)
  | .turning l =>
    if !l.computer.isRunning then some (stop .finished (l.computer.setHalted true) l.state)
    else if l.resumed || !(Session.shouldStop l.computer l.state).1 then
      some (.attempted l.computer l.state (tickResult l.computer), ofTurn l.tick.2)
    else some (stop .break l.computer l.state)
  | .menu why c s =>
    match s.console.script with
    | [] => some (.closed, .done ⟨.ok (), c, s.read none []⟩)
    | line :: rest =>
      some (.answered line (s.meant line), answer why c (s.read (some line) rest) line)
  | .done _ => none

variable {l : Loop Session}

theorem step_of_end (hrun : l.computer.isRunning = false) :
    (Moment.turning l).step = some (stop .finished (l.computer.setHalted true) l.state) := by
  simp only [step, hrun, Bool.not_false, if_true]

theorem step_of_unasked (hrun : l.computer.isRunning = true)
    (hask : l.resumed = true ∨ (Session.shouldStop l.computer l.state).1 = false) :
    (Moment.turning l).step =
      some (.attempted l.computer l.state (tickResult l.computer), ofTurn l.tick.2) := by
  have hgo : (l.resumed || !(Session.shouldStop l.computer l.state).1) = true := by
    simpa using hask
  simp only [step, hrun, Bool.not_true, Bool.false_eq_true, if_false, hgo, if_true]

theorem step_of_tick {cpu : Cpu} (hrun : l.computer.isRunning = true)
    (hask : l.resumed = true ∨ (Session.shouldStop l.computer l.state).1 = false)
    (h : Cpu.tick l.computer.program l.computer.jumps l.computer.cpu = .ok () cpu) :
    (Moment.turning l).step = some (.attempted l.computer l.state (.ok ()),
      .turning ⟨{ l.computer with cpu }, l.state, false⟩) := by
  rw [step_of_unasked hrun hask, Loop.tick_of_ok h, tickResult, h]
  rfl

theorem step_of_dry {cpu : Cpu} (hrun : l.computer.isRunning = true)
    (hask : l.resumed = true ∨ (Session.shouldStop l.computer l.state).1 = false)
    (h : Cpu.tick l.computer.program l.computer.jumps l.computer.cpu = .error .inboxEmpty cpu) :
    (Moment.turning l).step = some (.attempted l.computer l.state (.error .inboxEmpty),
      .turning ⟨l.computer.setHalted true, l.state, false⟩) := by
  obtain ⟨-, rfl⟩ := Cpu.tick_eq_error.mp h
  rw [step_of_unasked hrun hask, Loop.tick_of_inboxEmpty h, tickResult, h]
  rfl

theorem step_of_failure {cpu : Cpu} {e : Cpu.Error} (hrun : l.computer.isRunning = true)
    (hask : l.resumed = true ∨ (Session.shouldStop l.computer l.state).1 = false)
    (h : Cpu.tick l.computer.program l.computer.jumps l.computer.cpu = .error e cpu)
    (he : e ≠ .inboxEmpty) :
    (Moment.turning l).step = some (.attempted l.computer l.state (.error e),
      .done ⟨.error e, l.computer, l.state⟩) := by
  obtain ⟨-, rfl⟩ := Cpu.tick_eq_error.mp h
  rw [step_of_unasked hrun hask, Loop.tick_of_error h he, tickResult, h]
  rfl

theorem step_of_breakpoint (hrun : l.computer.isRunning = true) (hask : l.resumed = false)
    (hat : (Session.shouldStop l.computer l.state).1 = true) :
    (Moment.turning l).step = some (stop .break l.computer l.state) := by
  simp only [step, hrun, hask, hat, Bool.not_true, Bool.false_eq_true, if_false, Bool.or_self]

theorem step_of_line (why : Stop) (c : Computer) {s : Session} {line : String}
    {rest : List String} (hscript : s.console.script = line :: rest) :
    (Moment.menu why c s).step =
      some (.answered line (s.meant line), answer why c (s.read (some line) rest) line) := by
  simp only [step, hscript]

end Moment

/-! ### All that can happen -/

open Moment

/-- `Step m e m'`: at moment `m`, `e` can happen and leads to `m'`. -/
inductive Step : Moment → Happening → Moment → Prop
  /-- The program is at its end. -/
  | finish {l : Loop Session} {c : Computer} (hrun : l.computer.isRunning = false)
      (hc : c = l.computer.setHalted true) :
      Step (.turning l) (.stopped .finished c (l.state.opening .finished c))
        (.menu .finished c (l.state.opening .finished c))
  /-- The run arrives at a breakpoint. -/
  | break {l : Loop Session} (hrun : l.computer.isRunning = true) (hask : l.resumed = false)
      (hat : (Session.shouldStop l.computer l.state).1 = true) :
      Step (.turning l) (.stopped .break l.computer (l.state.opening .break l.computer))
        (.menu .break l.computer (l.state.opening .break l.computer))
  /-- An instruction is executed. -/
  | tick {l : Loop Session} {cpu : Cpu} (hrun : l.computer.isRunning = true)
      (hask : l.resumed = true ∨ (Session.shouldStop l.computer l.state).1 = false)
      (h : Cpu.tick l.computer.program l.computer.jumps l.computer.cpu = .ok () cpu) :
      Step (.turning l) (.attempted l.computer l.state (.ok ()))
        (.turning ⟨{ l.computer with cpu }, l.state, false⟩)
  /-- The inbox runs dry. -/
  | dry {l : Loop Session} (hrun : l.computer.isRunning = true)
      (hask : l.resumed = true ∨ (Session.shouldStop l.computer l.state).1 = false)
      (h : Cpu.tick l.computer.program l.computer.jumps l.computer.cpu
        = .error .inboxEmpty l.computer.cpu) :
      Step (.turning l) (.attempted l.computer l.state (.error .inboxEmpty))
        (.turning ⟨l.computer.setHalted true, l.state, false⟩)
  /-- An instruction fails for good. -/
  | fail {l : Loop Session} {e : Cpu.Error} (hrun : l.computer.isRunning = true)
      (hask : l.resumed = true ∨ (Session.shouldStop l.computer l.state).1 = false)
      (h : Cpu.tick l.computer.program l.computer.jumps l.computer.cpu
        = .error e l.computer.cpu) (he : e ≠ .inboxEmpty) :
      Step (.turning l) (.attempted l.computer l.state (.error e))
        (.done ⟨.error e, l.computer, l.state⟩)
  /-- There is no line left. -/
  | closed {why : Stop} {c : Computer} {s : Session} (hscript : s.console.script = []) :
      Step (.menu why c s) .closed (.done ⟨.ok (), c, s.read none []⟩)
  /-- The line means nothing. -/
  | ignored {why : Stop} {c : Computer} {s : Session} {line : String}
      (console : Console) (hscript : s.console.script = line :: console.script)
      (hmeant : s.meant line = none) :
      Step (.menu why c s) (.answered line none) (.menu why c { s with console })
  /-- The command shows something, or toggles a breakpoint. -/
  | stayed {why : Stop} {c : Computer} {s : Session} {line : String} {command : Command}
      (console : Console) (hscript : s.console.script = line :: console.script)
      (hmeant : s.meant line = some command)
      (hrestart : command ≠ .restart) (hcontinue : command ≠ .continue)
      (hquit : command ≠ .quit) (hstep : command = .step → c.cpu.halted = true) :
      Step (.menu why c s) (.answered line (some command))
        (.menu why c { s with console, breakpoints := s.marked c command,
                              lastCommand := some command })
  /-- The run goes back to its beginning and the menu stays open. -/
  | restarted {why : Stop} {c : Computer} {s : Session} {line : String}
      (console : Console) (hscript : s.console.script = line :: console.script)
      (hmeant : s.meant line = some .restart) :
      Step (.menu why c s) (.answered line (some .restart))
        (.menu why { c with cpu := c.cpu.restart s.inbox s.memory }
          { s with console, lastCommand := some .restart })
  /-- The run goes on. -/
  | continued {why : Stop} {c : Computer} {s : Session} {line : String}
      (console : Console) (hscript : s.console.script = line :: console.script)
      (hmeant : s.meant line = some .continue) (hwhy : ¬ (why = .finished ∧ c.cpu.halted = true)) :
      Step (.menu why c s) (.answered line (some .continue))
        (.turning ⟨c, { s with console, lastCommand := some .continue }, true⟩)
  /-- The run was to go on, but the program is at its end. -/
  | ended {c : Computer} {s : Session} {line : String}
      (console : Console) (hscript : s.console.script = line :: console.script)
      (hmeant : s.meant line = some .continue) (hhalted : c.cpu.halted = true) :
      Step (.menu .finished c s) (.answered line (some .continue))
        (.done ⟨.ok (), c, { s with console, lastCommand := some .continue }⟩)
  /-- The run goes on for one instruction. -/
  | stepped {why : Stop} {c : Computer} {s : Session} {line : String}
      (console : Console) (hscript : s.console.script = line :: console.script)
      (hmeant : s.meant line = some .step) (hhalted : c.cpu.halted = false) :
      Step (.menu why c s) (.answered line (some .step))
        (.turning ⟨c, { s with console, lastCommand := some .step,
                               temporary := (s.armNext c).temporary }, true⟩)
  /-- The run is given up. -/
  | quit {why : Stop} {c : Computer} {s : Session} {line : String}
      (console : Console) (hscript : s.console.script = line :: console.script)
      (hmeant : s.meant line = some .quit) :
      Step (.menu why c s) (.answered line (some .quit))
        (.done ⟨.ok (), c, { s with console, lastCommand := some .quit }⟩)

theorem answer_view {why : Stop} {c : Computer} {s : Session} {line : String}
    {rest : List String} (hscript : s.console.script = line :: rest) :
    Step (.menu why c s) (.answered line (s.meant line))
      (answer why c (s.read (some line) rest) line) := by
  set reading := s.read (some line) rest with hreading
  cases hmeant : s.meant line with
  | none =>
      obtain ⟨lines, hrespond⟩ := Session.respond_of_meant_eq_none reading c hmeant
      simp only [answer, hrespond]
      exact .ignored (reading.console.write lines) hscript hmeant
  | some command =>
      have hrespond := Session.respond_of_meant_eq_some reading c hmeant
      by_cases hstays : (command ≠ .restart ∧ command ≠ .continue ∧ command ≠ .quit) ∧
          (command = .step → c.cpu.halted = true)
      · obtain ⟨⟨hrestart, hcontinue, hquit⟩, hstep⟩ := hstays
        obtain ⟨lines, notes, hstay⟩ := Session.execute_stays
          { reading with lastCommand := some command } c hrestart hcontinue hquit hstep
        have hmarked : ({ reading with lastCommand := some command }).marked c command
            = s.marked c command := Session.marked_eq s c command reading.console (some command)
        rw [hstay, hmarked] at hrespond
        simp only [answer, hrespond]
        exact .stayed (reading.console.write lines) hscript hmeant hrestart hcontinue
          hquit hstep
      · cases command with
        | restart =>
            simp only [answer, hrespond]
            exact .restarted (reading.console.write _) hscript hmeant
        | «continue» =>
            simp only [answer, hrespond, Session.execute, resumed]
            by_cases hended : why = .finished ∧ c.cpu.halted = true
            · obtain ⟨rfl, hhalted⟩ := hended
              rw [if_pos ⟨rfl, hhalted⟩]
              exact .ended (reading.console.write _) hscript hmeant hhalted
            · rw [if_neg hended]
              exact .continued (reading.console.write _) hscript hmeant hended
        | quit =>
            simp only [answer, hrespond]
            exact .quit (reading.console.write _) hscript hmeant
        | step =>
            have hhalted : c.cpu.halted = false := by simpa using hstays
            simp only [answer, hrespond, Session.execute, Session.step, hhalted,
              Bool.false_eq_true, if_false, resumed, and_false]
            have harmed : (({ reading with lastCommand := some .step }).armNext c).temporary
                = (s.armNext c).temporary :=
              Session.armNext_temporary s c reading.console (some .step)
            rw [Session.armNext_eq, harmed]
            exact .stepped (reading.console.write _) hscript hmeant hhalted
        | accumulator | breakpoint _ | everything | inbox | list _ | memory _ | outbox | help =>
            simp at hstays

/-- **Whatever happens is one of the cases of `Step`.** -/
theorem step_view {m m' : Moment} {e : Happening} (h : m.step = some (e, m')) :
    Step m e m' := by
  cases m with
  | turning l =>
      cases hrun : l.computer.isRunning with
      | false =>
          rw [step_of_end hrun] at h
          cases h
          exact .finish hrun rfl
      | true =>
          by_cases hask : l.resumed = true ∨ (Session.shouldStop l.computer l.state).1 = false
          · cases htick : Cpu.tick l.computer.program l.computer.jumps l.computer.cpu with
            | ok _ cpu =>
                rw [step_of_tick hrun hask htick] at h
                cases h
                exact .tick hrun hask htick
            | error error cpu =>
                obtain ⟨-, rfl⟩ := Cpu.tick_eq_error.mp htick
                by_cases herror : error = .inboxEmpty
                · subst herror
                  rw [step_of_dry hrun hask htick] at h
                  cases h
                  exact .dry hrun hask htick
                · rw [step_of_failure hrun hask htick herror] at h
                  cases h
                  exact .fail hrun hask htick herror
          · simp only [not_or, Bool.not_eq_true, Bool.not_eq_false] at hask
            rw [step_of_breakpoint hrun hask.1 hask.2] at h
            cases h
            exact .break hrun hask.1 hask.2
  | menu why c s =>
      cases hscript : s.console.script with
      | nil =>
          simp only [step, hscript] at h
          cases h
          exact .closed hscript
      | cons line rest =>
          rw [step_of_line why c hscript] at h
          cases h
          exact answer_view hscript
  | done o => cases h

end Debugger

end Mailroom
