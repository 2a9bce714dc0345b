/-
What the session does at a stop and with a line.

Most commands only show something.  `execute_stays` says so once for all of them: they
stay in the menu and change at most the breakpoints.  What is shown goes to the console,
and nothing else depends on the console.  The breakpoints after a command and the steps
that a step arms are the same whatever was written before, so a run can be followed
without knowing any of the texts.
-/
import Mailroom.Debugger

namespace Mailroom

namespace Debugger

namespace Session

/-! ### Stops -/

theorem shouldStop_eq_true {c : Computer} {s : Session} :
    (shouldStop c s).1 = true ↔
      ∃ pc, c.cpu.pc = some pc ∧ (pc ∈ s.breakpoints ∨ pc ∈ s.temporary) := by
  unfold shouldStop
  cases c.cpu.pc with
  | none => simp
  | some pc => simp

/-- The session as the menu finds it at a stop. -/
def opening (s : Session) (why : Stop) (c : Computer) : Session :=
  let s := { s with temporary := ∅ }
  s.write (s.stopLines c why)

section Opening

variable (s : Session) (why : Stop) (c : Computer)

@[simp] theorem opening_breakpoints : (s.opening why c).breakpoints = s.breakpoints := by
  simp only [opening, write]

@[simp] theorem opening_temporary : (s.opening why c).temporary = ∅ := by
  simp only [opening, write]

@[simp] theorem opening_inbox : (s.opening why c).inbox = s.inbox := by
  simp only [opening, write]

@[simp] theorem opening_memory : (s.opening why c).memory = s.memory := by
  simp only [opening, write]

@[simp] theorem opening_script : (s.opening why c).console.script = s.console.script := by
  simp only [opening, write, Console.write]

end Opening

/-! ### What a command can do -/

/-- The steps with a breakpoint after a command has been carried out. -/
def marked (s : Session) (c : Computer) (command : Command) : Std.ExtTreeSet Nat :=
  (s.execute c command).session.breakpoints

theorem toggleAt_eq (s : Session) (c : Computer) (target : String) :
    ∃ lines, s.toggleAt c target =
      { lines, computer := c,
        session := { s with breakpoints := (s.toggleAt c target).session.breakpoints } } := by
  unfold toggleAt toggle
  cases (Destination.ofString target).resolve c.jumps c.program.size with
  | error e => exact ⟨_, rfl⟩
  | ok step =>
      by_cases hset : s.breakpoints.contains step = true
      · simp only [if_pos hset]
        exact ⟨_, rfl⟩
      · simp only [if_neg hset]
        exact ⟨_, rfl⟩

/-- Commands that stay in the menu show something and change at most the breakpoints. -/
theorem execute_stays (s : Session) (c : Computer) {command : Command}
    (hrestart : command ≠ .restart) (hcontinue : command ≠ .continue)
    (hquit : command ≠ .quit) (hstep : command = .step → c.cpu.halted = true) :
    ∃ lines notes, s.execute c command =
      { lines, computer := c, session := { s with breakpoints := s.marked c command },
        resume := none, notes } := by
  cases command with
  | breakpoint target =>
      cases target with
      | none => exact ⟨_, _, rfl⟩
      | some target =>
          obtain ⟨lines, h⟩ := s.toggleAt_eq c target
          exact ⟨lines, [], h⟩
  | memory key => cases key <;> exact ⟨_, _, rfl⟩
  | step =>
      simp only [marked, execute, step, hstep rfl, if_true]
      exact ⟨_, _, rfl⟩
  | restart => exact absurd rfl hrestart
  | «continue» => exact absurd rfl hcontinue
  | quit => exact absurd rfl hquit
  | accumulator | everything | inbox | list _ | outbox | help => exact ⟨_, _, rfl⟩

/-- A breakpoint that is armed for once changes nothing else of the session. -/
theorem armNext_eq (s : Session) (c : Computer) :
    s.armNext c = { s with temporary := (s.armNext c).temporary } := by
  have hdest : ∀ d, s.armDestination c d =
      { s with temporary := (s.armDestination c d).temporary } := by
    intro d
    simp only [armDestination]
    split <;> rfl
  unfold armNext
  cases c.cpu.pc with
  | none => rfl
  | some pc =>
      simp only
      split
      · exact hdest _
      · rw [hdest]
        rfl
      · rfl

/-- What is armed does not depend on the console or on the last command. -/
theorem armNext_temporary (s : Session) (c : Computer) (console : Console)
    (lastCommand : Option Command) :
    ({ s with console, lastCommand }.armNext c).temporary = (s.armNext c).temporary := by
  have hdest : ∀ d, ({ s with console, lastCommand }.armDestination c d).temporary
      = (s.armDestination c d).temporary := by
    intro d
    unfold armDestination
    cases d.resolve c.jumps c.program.size <;> rfl
  unfold armNext
  cases c.cpu.pc with
  | none => rfl
  | some pc =>
      simp only
      split
      · exact hdest _
      · simp only [arm, hdest]
      · rfl

/-- A command looks neither at the console nor at the command before it. -/
theorem execute_congr (s : Session) (c : Computer) (command : Command) (console : Console)
    (lastCommand : Option Command) :
    { s with console, lastCommand }.execute c command = { s.execute c command with
      session := { (s.execute c command).session with console, lastCommand } } := by
  cases command with
  | breakpoint target =>
      cases target with
      | none => rfl
      | some target =>
          simp only [execute, toggleAt, toggle]
          cases (Destination.ofString target).resolve c.jumps c.program.size with
          | error e => rfl
          | ok step =>
              by_cases hset : s.breakpoints.contains step = true
              · simp only [if_pos hset]
              · simp only [if_neg hset]
  | step =>
      simp only [execute, step]
      split
      · rfl
      · rw [armNext_eq, armNext_eq s, armNext_temporary s c console lastCommand]
  | memory key => cases key <;> rfl
  | accumulator | «continue» | everything | inbox | list _ | outbox | quit | restart | help =>
      rfl

theorem marked_eq (s : Session) (c : Computer) (command : Command) (console : Console)
    (lastCommand : Option Command) :
    { s with console, lastCommand }.marked c command = s.marked c command := by
  rw [marked, execute_congr, marked]

/-- No command changes more of the session than the breakpoints of both kinds. -/
theorem execute_session (s : Session) (c : Computer) (command : Command) :
    (s.execute c command).session = { s with
      breakpoints := s.marked c command
      temporary := (s.execute c command).session.temporary } := by
  cases command with
  | breakpoint target =>
      cases target with
      | none => rfl
      | some target =>
          obtain ⟨lines, h⟩ := s.toggleAt_eq c target
          simp only [marked, execute]
          rw [h]
  | step =>
      simp only [marked, execute, step]
      split
      · rfl
      · rw [armNext_eq]
  | memory key => cases key <;> rfl
  | accumulator | «continue» | everything | inbox | list _ | outbox | quit | restart | help =>
      rfl

/-- No command touches the console; what it shows is written afterwards. -/
theorem execute_console (s : Session) (c : Computer) (command : Command) :
    (s.execute c command).session.console = s.console := by
  rw [execute_session]

/-- No command remembers itself. -/
theorem execute_lastCommand (s : Session) (c : Computer) (command : Command) :
    (s.execute c command).session.lastCommand = s.lastCommand := by
  rw [execute_session]

theorem respond_console (s : Session) (c : Computer) (line : String) :
    (s.respond c line).session.console = s.console := by
  unfold respond
  cases s.commandOf line with
  | error e => rfl
  | ok command =>
      cases command with
      | none => rfl
      | some command => exact execute_console _ c command

/-! ### What a line means -/

/-- The command that a line makes the menu carry out. -/
def meant (s : Session) (line : String) : Option Command :=
  match s.commandOf line with
  | .ok command => command
  | .error _ => none

/-- A line that means nothing is at most complained about. -/
theorem respond_of_meant_eq_none (s : Session) (c : Computer) {line : String}
    (h : s.meant line = none) :
    ∃ lines, s.respond c line = { lines, computer := c, session := s } := by
  unfold meant at h
  unfold respond
  cases hof : s.commandOf line with
  | error e => exact ⟨_, rfl⟩
  | ok command =>
      rw [hof] at h
      simp only at h
      subst h
      exact ⟨_, rfl⟩

/-- A line that means a command is remembered and carried out. -/
theorem respond_of_meant_eq_some (s : Session) (c : Computer) {line : String}
    {command : Command} (h : s.meant line = some command) :
    s.respond c line = { s with lastCommand := some command }.execute c command := by
  unfold meant at h
  unfold respond
  cases hof : s.commandOf line with
  | error e => rw [hof] at h; cases h
  | ok command =>
      rw [hof] at h
      simp only at h
      subst h
      rfl

end Session

end Debugger

end Mailroom
