/-
The arithmetic of steps stays in bounds.

The functions of this module with a question mark do the work of their namesakes on words
of 64 bits.  They give up, with `none`, as soon as a sum of steps does not fit a word, the
program is asked for a step it does not have, or the steps after the current one are to be
armed and there is no current one.  `run_stays_in_bounds` says that a run under the debugger
is never given up and goes as it goes on numbers.

The machine of a run is always on the track of ticks from the reset state, whatever the
script did to it, so its step is one of the program or right behind it.  A program that
takes up less than half of the words leaves room there (`roomy_of_trace`), and room is all
that the functions on words need.
-/
import Mailroom.Proofs.Cpu.Words
import Mailroom.Proofs.Debugger.Track
import Mailroom.Proofs.Listing.Range

namespace Mailroom

open Numeral (unsignedBound sum? cappedSum)

/-! ### Room -/

/-- There is a current step, words have room behind it, and they have room for the program. -/
structure Computer.Roomy (c : Computer) : Prop where
  step : ∃ pc, c.cpu.pc = some pc ∧ pc + 4 < unsignedBound
  program : c.program.size < unsignedBound

/-- A listing does not tell a sum that is too large from the greatest word. -/
theorem Computer.listing_cappedSum {c : Computer} (h : c.program.size < unsignedBound)
    (start m n : Nat) (breakpoints : Std.ExtTreeSet Nat) :
    c.listing start (cappedSum m n) breakpoints = c.listing start (m + n) breakpoints := by
  have hstop : min (cappedSum m n) c.program.size = min (m + n) c.program.size := by
    unfold cappedSum
    omega
  simp only [listing, hstop]

namespace Debugger

section

variable {d : Debugger} {es : List Happening} {m : Moment}

theorem within_of_trace (h : d.Trace es m) :
    m.computer.program = d.computer.program ∧
      ∃ pc, m.computer.cpu.pc = some pc ∧ pc ≤ d.computer.program.size := by
  obtain ⟨cpu, htrack⟩ := onTrack_of_tracked (tracked_of_trace h)
  obtain ⟨pc, hpc, hle⟩ := htrack.ticks.within
  refine ⟨htrack.program, pc, ?_, hle⟩
  rw [htrack.machine]
  exact hpc

/-- A program that takes up less than half of the words leaves room behind it. -/
theorem roomy_of_trace (hsize : d.computer.program.size < Nat.pow 2 63)
    (h : d.Trace es m) : m.computer.Roomy := by
  obtain ⟨hprogram, pc, hpc, hle⟩ := within_of_trace h
  have hhalf : Nat.pow 2 63 + 4 < unsignedBound := by decide
  refine ⟨⟨pc, hpc, by omega⟩, ?_⟩
  rw [hprogram]
  omega

end

/-! ### The session on words -/

namespace Session

def listLines? (s : Session) (c : Computer) (start stop : Nat) : Option (List String) :=
  (c.listing? start stop s.breakpoints).map fun lines => lines.map (·.text)

def contextLines? (s : Session) (c : Computer) : Option (List String) := do
  let pc := c.cpu.pc.getD 0
  let stop ← sum? pc 4
  s.listLines? c (pc - 3) stop

/-- There has to be a current step. -/
def armNext? (s : Session) (c : Computer) : Option Session := do
  let pc ← c.cpu.pc
  match c.currentInstruction? with
  | some (.jump .always destination) => some (s.armDestination c destination)
  | some (.jump _ destination) =>
    let next ← sum? pc 1
    some ((s.armDestination c destination).arm next)
  | _ =>
    let next ← sum? pc 1
    some (s.arm next)

def restart? (s : Session) (c : Computer) : Option Reply := do
  let c := { c with cpu := c.cpu.restart s.inbox s.memory }
  let context ← s.contextLines? c
  some { lines := "Restarted" :: context, computer := c, session := s
         notes := [⟨.info, "restarting"⟩] }

def step? (s : Session) (c : Computer) : Option Reply :=
  if c.cpu.halted then
    some { lines := ["Program finished, r restarts it"], computer := c, session := s }
  else do
    let session ← s.armNext? c
    some { computer := c, session, resume := some .continue }

/-- A list that would go beyond the greatest word stops there. -/
def execute? (s : Session) (c : Computer) : Command → Option Reply
  | .list count => do
    let lines ← match count, c.cpu.pc with
      | some n, some pc => s.listLines? c pc (cappedSum pc n)
      | _, _ => s.listLines? c 0 c.program.size
    some { lines, computer := c, session := s }
  | .restart => s.restart? c
  | .step => s.step? c
  -- The other commands add nothing to a step and look none up.
  | command => some (s.execute c command)

def respond? (s : Session) (c : Computer) (line : String) : Option Reply :=
  match s.commandOf line with
  | .ok (some command) => { s with lastCommand := some command }.execute? c command
  | .ok none => some { computer := c, session := s }
  | .error e => some { lines := [e.message], computer := c, session := s }

def menu? (c : Computer) (s : Session) (notes : List Log.Record) :
    List String → Option (Reaction Session)
  | [] =>
    some { answer := .ok .quit, computer := c, state := s.read none []
           notes := notes ++ s.console.lastNotes }
  | line :: rest => do
    let r ← (s.read (some line) rest).respond? c line
    let s := r.session.write r.lines
    let notes := notes ++ r.notes
    match r.resume with
    | some resume => some { answer := .ok resume, computer := r.computer, state := s, notes }
    | none => menu? r.computer s notes rest

def stopLines? (s : Session) (c : Computer) (why : Stop) : Option (List String) := do
  let first := match why with
    | .break => ["Stopped at step " ++ Numeral.ofStep (c.cpu.pc.getD 0)]
    | .finished =>
      ["Program finished after " ++ Numeral.ofNat c.cpu.steps ++ " steps", outboxText c]
  let context ← s.contextLines? c
  some (first ++ context)

def onStop? (why : Stop) (c : Computer) (s : Session) : Option (Reaction Session) := do
  let s := { s with temporary := ∅ }
  let lines ← s.stopLines? c why
  menu? c (s.write lines) (stopNotes c why) s.console.script

/-! ### With enough room nothing is given up -/

section Room

variable {c : Computer}

theorem listLines?_eq (s : Session) (c : Computer) (start stop : Nat) :
    s.listLines? c start stop = some (s.listLines c start stop) := by
  rw [listLines?, c.listing?_eq]
  rfl

theorem contextLines?_eq (h : c.Roomy) (s : Session) :
    s.contextLines? c = some (s.contextLines c) := by
  obtain ⟨pc, hpc, hroom⟩ := h.step
  simp only [contextLines?, contextLines, hpc, Option.getD_some, Numeral.sum?_eq hroom,
    listLines?_eq]
  rfl

theorem armNext?_eq (h : c.Roomy) (s : Session) : s.armNext? c = some (s.armNext c) := by
  obtain ⟨pc, hpc, hroom⟩ := h.step
  have hnext : sum? pc 1 = some (pc + 1) := Numeral.sum?_eq (by omega)
  simp only [armNext?, armNext, hpc, Option.bind_eq_bind, Option.bind_some, hnext]
  cases c.currentInstruction? with
  | none => rfl
  | some i =>
      cases i with
      | jump condition destination => cases condition <;> rfl
      | noOp | moveFromInbox | moveToOutbox | onTile action t => rfl

/-- A restart goes to the first step. -/
theorem roomy_restart (h : c.Roomy) (inbox : List Value) (memory : Memory) :
    Computer.Roomy { c with cpu := c.cpu.restart inbox memory } :=
  ⟨⟨0, rfl, by decide⟩, h.program⟩

theorem restart?_eq (h : c.Roomy) (s : Session) : s.restart? c = some (s.restart c) := by
  simp only [restart?, restart, contextLines?_eq (roomy_restart h s.inbox s.memory)]
  rfl

theorem step?_eq (h : c.Roomy) (s : Session) : s.step? c = some (s.step c) := by
  simp only [step?, step, armNext?_eq h]
  cases c.cpu.halted <;> rfl

theorem execute?_eq (h : c.Roomy) (s : Session) (command : Command) :
    s.execute? c command = some (s.execute c command) := by
  cases command with
  | list count =>
      obtain ⟨pc, hpc, -⟩ := h.step
      cases count with
      | none =>
          simp only [execute?, execute, listLines?_eq]
          rfl
      | some n =>
          simp only [execute?, execute, hpc, listLines?_eq, listLines,
            Computer.listing_cappedSum h.program]
          rfl
  | restart => exact restart?_eq h s
  | step => exact step?_eq h s
  | accumulator | breakpoint _ | «continue» | everything | inbox | memory _ | outbox | quit
  | help => rfl

theorem respond?_eq (h : c.Roomy) (s : Session) (line : String) :
    s.respond? c line = some (s.respond c line) := by
  unfold respond? respond
  cases s.commandOf line with
  | error e => rfl
  | ok command =>
      cases command with
      | none => rfl
      | some command => exact execute?_eq h _ command

theorem stopLines?_eq (h : c.Roomy) (s : Session) (why : Stop) :
    s.stopLines? c why = some (s.stopLines c why) := by
  simp only [stopLines?, stopLines, contextLines?_eq h]
  rfl

end Room

/-! ### Every menu of a run has room -/

variable {d : Debugger} {es : List Happening}

/-- A menu reads its lines one after the other, and each leads to another moment of the run. -/
theorem menu?_eq (hsize : d.computer.program.size < Nat.pow 2 63) {why : Stop} :
    ∀ (lines : List String) (es : List Happening) (c : Computer) (s : Session)
      (notes : List Log.Record), d.Trace es (.menu why c s) → s.console.script = lines →
      menu? c s notes lines = some (menu c s notes lines) := by
  intro lines
  induction lines with
  | nil =>
      intro es c s notes _ _
      rfl
  | cons line rest ih =>
      intro es c s notes h hscript
      have hroom : c.Roomy := roomy_of_trace hsize h
      have hstep := Path.snoc h (Moment.step_of_line why c hscript)
      have hconsole := respond_console (s.read (some line) rest) c line
      simp only [menu?, menu, respond?_eq hroom, Option.bind_eq_bind, Option.bind_some]
      simp only [Moment.answer] at hstep
      generalize (s.read (some line) rest).respond c line = r at hstep hconsole
      cases hresume : r.resume with
      | some resume => rfl
      | none =>
          rw [hresume] at hstep
          refine ih _ r.computer _ (notes ++ r.notes) hstep ?_
          show r.session.console.script = rest
          rw [hconsole]
          rfl

theorem onStop?_eq (hsize : d.computer.program.size < Nat.pow 2 63) {why : Stop}
    {c : Computer} {s : Session} (h : d.Trace es (.menu why c (s.opening why c))) :
    s.onStop? why c = some (s.onStop why c) := by
  have hroom : c.Roomy := roomy_of_trace hsize h
  have hmenu := menu?_eq hsize s.console.script es c _ (stopNotes c why) h
    (s.opening_script why c)
  simp only [onStop?, stopLines?_eq hroom]
  exact hmenu

end Session

end Debugger

/-! ### A run on words -/

namespace Loop

/-- The turn that a tick leads to. -/
def ofTick (l : Loop Debugger.Session) : EStateM.Result Cpu.Error Cpu Unit → Turn Debugger.Session
  | .ok _ cpu => .next ⟨{ l.computer with cpu }, l.state, false⟩
  | .error .inboxEmpty cpu =>
    .next ⟨{ l.computer with cpu := { cpu with halted := true } }, l.state, false⟩
  | .error e cpu => .over ⟨.error e, { l.computer with cpu }, l.state⟩

def tick? (l : Loop Debugger.Session) : Option (Turn Debugger.Session) :=
  (Cpu.outcome? (Cpu.tick? l.computer.program l.computer.jumps l.computer.cpu)).map l.ofTick

def turn? (l : Loop Debugger.Session) : Option (Turn Debugger.Session) :=
  if !l.computer.isRunning then
    (l.state.onStop? .finished (l.computer.setHalted true)).map (·.turn .finished)
  else if l.resumed || !(Debugger.Session.shouldStop l.computer l.state).1 then l.tick?
  else (l.state.onStop? .break l.computer).map (·.turn .break)

def drive? : Nat → Loop Debugger.Session → Option (Option (Outcome Debugger.Session))
  | 0, _ => some none
  | fuel + 1, l => do
    match ← l.turn? with
    | .next l => drive? fuel l
    | .over o => some (some o)

theorem tick_eq_ofTick (l : Loop Debugger.Session) :
    l.tick.2 = l.ofTick (Cpu.tick l.computer.program l.computer.jumps l.computer.cpu) := by
  cases h : Cpu.tick l.computer.program l.computer.jumps l.computer.cpu with
  | ok _ cpu => rw [tick_of_ok h, ofTick]
  | error e cpu =>
      by_cases he : e = .inboxEmpty
      · subst he
        rw [tick_of_inboxEmpty h, ofTick]
      · rw [tick_of_error h he, ofTick]
        exact he

theorem tick?_eq {l : Loop Debugger.Session} (h : l.computer.Roomy) : l.tick? = some l.tick.2 := by
  have hnext : ∀ pc, l.computer.cpu.pc = some pc → pc + 1 < unsignedBound := by
    intro pc hpc
    obtain ⟨pc', hpc', hroom⟩ := h.step
    rw [hpc] at hpc'
    cases hpc'
    omega
  rw [tick?, Cpu.tick?_eq hnext, Cpu.outcome?_attempt, tick_eq_ofTick]
  rfl

end Loop

namespace Debugger

open Moment

/-- The outer `none` says that the run was given up, the inner one that it took too long. -/
def run? (fuel : Nat) (d : Debugger) : Option (Option (Except Cpu.Error Unit × Debugger)) :=
  ((Loop.start d.computer d.openSession).drive? fuel).map fun o =>
    o.map fun o => (o.result, ⟨o.close.computer, o.close.state⟩)

variable {d : Debugger} {es : List Happening}

theorem turn?_eq (hsize : d.computer.program.size < Nat.pow 2 63) {l : Loop Session}
    (h : d.Trace es (.turning l)) : l.turn? = some (l.turn Session.hook).2 := by
  cases hrun : l.computer.isRunning with
  | false =>
      have hstop := Session.onStop?_eq hsize (.snoc h (step_of_end hrun))
      simp only [Loop.turn?, hrun, Bool.not_false, if_true, hstop, Option.map_some]
      rw [Loop.turn_of_end hrun, Loop.finish_eq Session.hook l rfl]
      rfl
  | true =>
      simp only [Loop.turn?, hrun, Bool.not_true, Bool.false_eq_true, if_false]
      by_cases hask : l.resumed = true ∨ (Session.shouldStop l.computer l.state).1 = false
      · obtain ⟨asked, -, hclear⟩ := cleared_of_unasked hask
        have hroom : l.computer.Roomy := roomy_of_trace hsize h
        rw [if_pos (by simpa using hask), Loop.tick?_eq hroom, Loop.turn_of_cleared hrun hclear]
      · rw [if_neg (by simpa using hask)]
        simp only [not_or, Bool.not_eq_true, Bool.not_eq_false] at hask
        have hstop := Session.onStop?_eq hsize (.snoc h (step_of_breakpoint hrun hask.1 hask.2))
        have hanswer : Session.hook.shouldStop l.computer l.state = (true, l.state) :=
          Prod.ext hask.2 rfl
        rw [hstop, Loop.turn_of_break hrun hask.1 hanswer,
          Loop.interrupt_eq Session.hook { l with state := l.state } rfl]
        rfl

theorem drive?_eq {α : Type} (hsize : d.computer.program.size < Nat.pow 2 63)
    (observer : α → Event → α) :
    ∀ (fuel : Nat) (a : α) (es : List Happening) (l : Loop Session), d.Trace es (.turning l) →
      l.drive? fuel = some ((l.drive Session.hook observer fuel a).map (·.2)) := by
  intro fuel
  induction fuel with
  | zero =>
      intro a es l _
      rfl
  | succ fuel ih =>
      intro a es l h
      obtain ⟨e, es', hpath, -⟩ := turn_path l
      rw [Loop.drive?, turn?_eq hsize h]
      rcases hturn : l.turn Session.hook with ⟨events, t⟩
      rw [hturn] at hpath
      simp only [Loop.drive, hturn]
      cases t with
      | next l' => exact ih _ _ l' (Path.append h hpath)
      | «over» o => rfl

/-- The steps of a run are steps of the program, up to the end, and their sums are words. -/
structure InBounds (d : Debugger) : Prop where
  /-- At every moment there is a current step, of the program or right behind it. -/
  current : ∀ es m, d.Trace es m → m.computer.program = d.computer.program ∧
    ∃ pc, m.computer.cpu.pc = some pc ∧ pc ≤ d.computer.program.size
  /-- At every menu each command can be carried out on words, whatever count it is given. -/
  commands : ∀ es why c s command, d.Trace es (.menu why c s) →
    s.execute? c command = some (s.execute c command)
  /-- The run on words is not given up and goes as the run on numbers. -/
  run : ∀ fuel, d.run? fuel = some (d.run fuel)

/--
**The arithmetic of steps is safe.**

Whatever the program, the jump table, the memory, the inbox and the script are, the machine
of a run under the debugger is always at a step of the program or right behind it.  So if the
program takes up less than half of the words, no sum of steps is too large for a word, no
instruction is looked up that is not there, and no step is armed without a current one.
-/
theorem run_stays_in_bounds {d : Debugger} (hsize : d.computer.program.size < Nat.pow 2 63) :
    d.InBounds := by
  refine ⟨?_, ?_, ?_⟩
  · intro es m h
    exact within_of_trace h
  · intro es why c s command h
    have hroom : c.Roomy := roomy_of_trace hsize h
    exact Session.execute?_eq hroom s command
  · intro fuel
    rw [run?, drive?_eq hsize (fun _ _ => ()) fuel () [] _ .nil]
    simp only [Debugger.run, Debugger.observe, Computer.observe, Option.map_some, Option.map_map]
    rfl

/-- Falls off its end, past a jump to a label that names the greatest word. -/
def brink : Debugger where
  computer := { program := #[.moveFromInbox, .jump .ifZero (.label "far"), .moveToOutbox],
                jumps := ⟨[("far", 18446744073709551615)]⟩,
                cpu := { inbox := [.int 1] } }
  session := { console := { script := ["s", "s", "s", "l", "q"] } }

theorem brink_in_bounds :
    brink.computer.program.size < Nat.pow 2 63 ∧
    (∃ es c s r, brink.Trace es (.menu .break c s) ∧
      s.execute? c (.list (some 18446744073709551615)) = some r ∧ r.lines.length = 3) ∧
    ∃ d', brink.run? 10 = some (some (.ok (), d')) ∧ d'.computer.cpu.outbox = #[.int 1] := by
  have hsize : brink.computer.program.size < Nat.pow 2 63 := by decide
  have hbounds := run_stays_in_bounds hsize
  refine ⟨hsize, ?_, ?_⟩
  · have hopens : ∃ c s, brink.opening.step = some (.stopped .break c s, .menu .break c s) ∧
        (s.execute c (.list (some 18446744073709551615))).lines.length = 3 :=
      ⟨_, _, rfl, by decide +kernel⟩
    obtain ⟨c, s, hstep, hlines⟩ := hopens
    have htrace := Path.single hstep
    exact ⟨_, c, s, _, htrace, hbounds.commands _ _ c s _ htrace, hlines⟩
  · have hrun : ∃ d', brink.run 10 = some (.ok (), d') ∧ d'.computer.cpu.outbox = #[.int 1] :=
      ⟨_, rfl, rfl⟩
    obtain ⟨d', hreturns, houtbox⟩ := hrun
    refine ⟨d', ?_, houtbox⟩
    rw [hbounds.run, hreturns]

end Debugger

end Mailroom
