/-
The bookkeeping of breakpoints.

A breakpoint is set or removed by a call or by a command of the menu, and forgotten when a
program is loaded.  Nothing else touches it: not a run, however it goes and ends, and not the
other set of breakpoints, which comes and goes with single steps.  So the breakpoints can be
read off what has been done with the debugger: a step has one exactly if it has been toggled
an odd number of times since the last program was loaded (`breakpoints_bookkeeping`).

The command names its step by a number or by a label, and the label is looked up when the
command is carried out.  Between two runs the jump table may be edited, so the same word can
toggle different steps; within a run the table stays as it is.
-/
import Mathlib.Algebra.Ring.Parity
import Mailroom.Proofs.Debugger.Loading
import Mailroom.Proofs.Debugger.Track

namespace Mailroom

/-! ### The step that a word names -/

/-- A numeral names the step with this number, and any other word the step of the label; there
must be such a step. -/
def Computer.stepNamed (c : Computer) (word : String) : Option Nat :=
  (match Numeral.unsigned? word with
    | some n => some n
    | none => c.jumps.get? word).filter (· < c.program.size)

namespace Debugger

variable {c : Computer} {s : Session} {word : String} {step : Nat}

theorem resolve_ofString (c : Computer) (word : String) :
    (Destination.ofString word).resolve c.jumps c.program.size
      = match c.stepNamed word with
        | some step => .ok step
        | none => .error (.noSuchJumpDestination (.ofString word)) := by
  rw [Destination.resolve_eq]
  have hnamed : (Destination.ofString word).named? c.jumps
      = match Numeral.unsigned? word with
        | some n => some n
        | none => c.jumps.get? word := by
    rw [Destination.ofString]
    cases Numeral.unsigned? word <;> rfl
  rw [hnamed, Computer.stepNamed]
  cases (match Numeral.unsigned? word with
    | some n => some n
    | none => c.jumps.get? word) with
  | none => rfl
  | some n =>
      by_cases hlt : n < c.program.size
      · simp [Option.filter, hlt]
      · simp [Option.filter, hlt]

/-! ### Toggling -/

/-- What is shown when a breakpoint has been toggled. -/
def toggleText (isSet : Bool) (step : Nat) : String :=
  (if isSet then "Breakpoint set at step " else "Breakpoint removed from step ")
    ++ Numeral.ofStep step

namespace Session

/-- Only the breakpoint at the step changes. -/
theorem mem_toggle (s : Session) (step other : Nat) :
    other ∈ (s.toggle step).2.breakpoints ↔ (other ∈ s.breakpoints ↔ other ≠ step) := by
  have hmem : s.breakpoints.contains step = true ↔ step ∈ s.breakpoints :=
    Std.ExtTreeSet.mem_iff_contains.symm
  unfold toggle
  by_cases hset : s.breakpoints.contains step = true
  · simp only [if_pos hset, Std.ExtTreeSet.mem_erase, ne_eq, Nat.compare_eq_eq]
    by_cases hother : other = step
    · simp [hother, hmem.mp hset]
    · simp [hother, Ne.symm hother]
  · simp only [if_neg hset, Std.ExtTreeSet.mem_insert, Nat.compare_eq_eq]
    by_cases hother : other = step
    · simp [hother, mt hmem.mpr hset]
    · simp [hother, Ne.symm hother]

/-- The answer says whether the breakpoint is set now. -/
theorem toggle_answer (s : Session) (step : Nat) :
    (s.toggle step).1 = true ↔ step ∈ (s.toggle step).2.breakpoints := by
  unfold toggle
  by_cases hset : s.breakpoints.contains step = true
  · simp only [if_pos hset]
    simp
  · simp only [if_neg hset]
    simp

theorem toggleAt_of_named (h : c.stepNamed word = some step) :
    s.toggleAt c word = { lines := [toggleText (s.toggle step).1 step], computer := c,
                          session := (s.toggle step).2 } := by
  rw [toggleAt, resolve_ofString, h]
  by_cases hset : s.breakpoints.contains step = true
  · simp only [toggle, if_pos hset]
    rfl
  · simp only [toggle, if_neg hset]
    rfl

theorem toggleAt_of_unnamed (h : c.stepNamed word = none) :
    s.toggleAt c word
      = { lines := [(Cpu.Error.noSuchJumpDestination (.ofString word)).message], computer := c,
          session := s } := by
  rw [toggleAt, resolve_ofString, h]

theorem toggle_console (s : Session) (step : Nat) :
    (s.toggle step).2.console = s.console := by
  unfold toggle
  split <;> rfl

/-- The breakpoints after the one at this step has been toggled, if it is a step. -/
def flipped (s : Session) : Option Nat → Std.ExtTreeSet Nat
  | some step => (s.toggle step).2.breakpoints
  | none => s.breakpoints

end Session

/-- The step that a command toggles, if it toggles one. -/
def Command.toggled? (c : Computer) : Command → Option Nat
  | .breakpoint (some word) => c.stepNamed word
  | _ => none

theorem Command.toggled?_eq_some {command : Command} :
    command.toggled? c = some step ↔
      ∃ word, command = .breakpoint (some word) ∧ c.stepNamed word = some step := by
  constructor
  · intro h
    unfold toggled? at h
    split at h
    · exact ⟨_, rfl, h⟩
    · cases h
  · rintro ⟨word, rfl, h⟩
    exact h

/-- Commands change the breakpoints by toggling only. -/
theorem Session.marked_eq_flipped (s : Session) (c : Computer) (command : Command) :
    s.marked c command = s.flipped (command.toggled? c) := by
  cases command with
  | breakpoint target =>
      cases target with
      | none => rfl
      | some word =>
          simp only [marked, execute, Command.toggled?]
          cases hnamed : c.stepNamed word with
          | none => rw [toggleAt_of_unnamed hnamed, flipped]
          | some step => rw [toggleAt_of_named hnamed, flipped]
  | step =>
      simp only [marked, execute, Session.step]
      split
      · rfl
      · rw [armNext_eq]
        rfl
  | memory key => cases key <;> rfl
  | accumulator | everything | inbox | list _ | outbox | help | «continue» | quit | restart => rfl

/-! ### What happens in a run -/

/-- The session at some moment of a run. -/
def Moment.session : Moment → Session
  | .turning l => l.state
  | .menu _ _ s => s
  | .done o => o.state

/-- The step that is toggled when this happens, if one is. -/
def Happening.toggled? (c : Computer) : Happening → Option Nat
  | .answered _ (some command) => command.toggled? c
  | .answered _ none | .stopped .. | .attempted .. | .closed => none

/-- **Nothing that happens touches the breakpoints but a command that toggles one.** -/
theorem breakpoints_step {m m' : Moment} {e : Happening} (h : Step m e m') :
    m'.session.breakpoints = m.session.flipped (e.toggled? m.computer) := by
  cases h with
  | finish _ _ | «break» _ _ _ => exact Session.opening_breakpoints _ _ _
  | stayed console _ _ _ _ _ _ => exact Session.marked_eq_flipped _ _ _
  | tick | dry | fail | closed | ignored | restarted | continued | ended | stepped | quit => rfl

theorem stepNamed_congr {c c' : Computer} (hprogram : c.program = c'.program)
    (hjumps : c.jumps = c'.jumps) : c.stepNamed = c'.stepNamed := by
  funext word
  rw [Computer.stepNamed, Computer.stepNamed, hprogram, hjumps]

theorem Happening.toggled?_congr {c c' : Computer} (hprogram : c.program = c'.program)
    (hjumps : c.jumps = c'.jumps) (e : Happening) : e.toggled? c = e.toggled? c' := by
  have hnamed := stepNamed_congr hprogram hjumps
  cases e with
  | answered line command =>
      cases command with
      | none => rfl
      | some command => simp only [toggled?, Command.toggled?, hnamed]
  | stopped | attempted | closed => rfl

/-- Program and jump table stay as they are for the whole of a run. -/
theorem code_of_trace {d : Debugger} {es : List Happening} {m : Moment} (h : d.Trace es m) :
    m.computer.program = d.computer.program ∧ m.computer.jumps = d.computer.jumps := by
  obtain ⟨cpu, htrack⟩ := onTrack_of_tracked (tracked_of_trace h)
  exact ⟨htrack.program, htrack.jumps⟩

/-- What a line does that toggles a breakpoint. -/
theorem answer_of_toggled {line : String} (hmeant : s.meant line = some (.breakpoint (some word)))
    (hnamed : c.stepNamed word = some step) (why : Stop) (rest : List String) :
    ∃ isSet session, Moment.answer why c (s.read (some line) rest) line = .menu why c session ∧
      (isSet = true ↔ step ∈ session.breakpoints) ∧ session.console.transcript
        = s.console.transcript ++ #[.read (some line), .wrote (toggleText isSet step)] := by
  have hrespond := Session.respond_of_meant_eq_some (s.read (some line) rest) c hmeant
  generalize ht : ({ s.read (some line) rest with
    lastCommand := some (.breakpoint (some word)) } : Session) = t at hrespond
  have htranscript : t.console.transcript = s.console.transcript.push (.read (some line)) := by
    rw [← ht]
    rfl
  rw [Session.execute, Session.toggleAt_of_named hnamed] at hrespond
  refine ⟨(t.toggle step).1, (t.toggle step).2.write [toggleText (t.toggle step).1 step], ?_,
    t.toggle_answer step, ?_⟩
  · simp only [Moment.answer, hrespond]
  · show (t.toggle step).2.console.transcript ++ #[.wrote (toggleText (t.toggle step).1 step)] = _
    rw [Session.toggle_console, htranscript, Array.push_eq_append, Array.append_assoc]
    rfl

/-- **A command that toggles a breakpoint says whether it is set now.** -/
theorem shown_of_toggled {m m' : Moment} {e : Happening} (h : m.step = some (e, m'))
    (htoggled : e.toggled? m.computer = some step) :
    ∃ line word isSet, e = .answered line (some (.breakpoint (some word))) ∧
      (isSet = true ↔ step ∈ m'.session.breakpoints) ∧
      m'.session.console.transcript = m.session.console.transcript
        ++ #[.read (some line), .wrote (toggleText isSet step)] := by
  -- The view tells which happening this is but not what has been shown, so the moment after it
  -- is found once more, from the line.
  cases step_view h with
  | @stayed why c s line command console hscript hmeant =>
      obtain ⟨word, rfl, hnamed⟩ := Command.toggled?_eq_some.mp htoggled
      rw [Moment.step_of_line _ _ hscript] at h
      obtain ⟨isSet, session, hanswer, hset, hshown⟩ :=
        answer_of_toggled hmeant hnamed why console.script
      have hsession : session = _ := (Moment.menu.inj (hanswer.symm.trans
        (congrArg Prod.snd (Option.some.inj h)))).2.2
      rw [hsession] at hset hshown
      exact ⟨line, word, isSet, rfl, hset, hshown⟩
  | finish | «break» | tick | dry | fail | closed | ignored | restarted | continued | ended
  | stepped | quit => cases htoggled

/-! ### Odd numbers of toggles -/

/-- The steps with a breakpoint are those that occur an odd number of times. -/
def Tally (toggles : List Nat) (breakpoints : Std.ExtTreeSet Nat) : Prop :=
  ∀ step, step ∈ breakpoints ↔ Odd (toggles.count step)

theorem tally_empty : Tally [] ∅ := by
  intro step
  simp

theorem Tally.toggle {toggles : List Nat} (h : Tally toggles s.breakpoints) (step : Nat) :
    Tally (toggles ++ [step]) (s.toggle step).2.breakpoints := by
  intro other
  rw [Session.mem_toggle, h other, List.count_append]
  by_cases hother : other = step
  · subst hother
    simp [Nat.odd_add_one]
  · simp [hother, Ne.symm hother]

theorem Tally.flipped {toggles : List Nat} (h : Tally toggles s.breakpoints)
    (toggled : Option Nat) : Tally (toggles ++ toggled.toList) (s.flipped toggled) := by
  cases toggled with
  | none =>
      rw [Option.toList_none, List.append_nil]
      exact h
  | some step => exact h.toggle step

theorem tally_of_trace {d : Debugger} {toggles : List Nat} {es : List Happening} {m : Moment}
    (h : Tally toggles d.breakpoints) (htrace : d.Trace es m) :
    Tally (toggles ++ es.filterMap (·.toggled? d.computer)) m.session.breakpoints := by
  induction htrace with
  | nil =>
      rw [List.filterMap_nil, List.append_nil]
      exact h
  | @snoc es m m' e hbefore hstep ih =>
      obtain ⟨hprogram, hjumps⟩ := code_of_trace hbefore
      rw [breakpoints_step (step_view hstep), e.toggled?_congr hprogram hjumps,
        filterMap_concat, ← List.append_assoc]
      exact ih.flipped _

/-! ### What has been done with a debugger -/

/--
`Past toggles d`: something has been done with a debugger that leads to `d`, and the toggles
are those since a program was loaded, or since the debugger is there.
-/
inductive Past : List Nat → Debugger → Prop
  | new (computer : Computer) (console : Console) : Past [] { computer, session := { console } }
  | loaded {toggles : List Nat} {d d' : Debugger} {source : String} (h : Past toggles d)
      (hload : (loadSource source).run d = .ok () d') : Past [] d'
  | notLoaded {toggles : List Nat} {d d' : Debugger} {source : String} {fault : Assembly.Fault}
      (h : Past toggles d) (hload : (loadSource source).run d = .error fault d') : Past toggles d'
  | loadedFile {toggles : List Nat} {d d' : Debugger} {file : Option ByteArray}
      (h : Past toggles d) (hload : (loadFile file).run d = .ok () d') : Past [] d'
  | notLoadedFile {toggles : List Nat} {d d' : Debugger} {file : Option ByteArray}
      {e : Assembly.FileError} (h : Past toggles d)
      (hload : (loadFile file).run d = .error e d') : Past toggles d'
  | toggled {toggles : List Nat} {d : Debugger} (h : Past toggles d) (step : Nat) :
      Past (toggles ++ [step]) (d.toggleBreakpoint step).2
  /-- Between runs the computer may be changed in any way, the jump table in particular. -/
  | edited {toggles : List Nat} {d : Debugger} (h : Past toggles d) (computer : Computer) :
      Past toggles { d with computer }
  /-- A run toggles what its script tells it to. -/
  | ran {toggles : List Nat} {d d' : Debugger} {console : Console} {fuel : Nat}
      {result : Except Cpu.Error Unit} {es : List Happening} {o : Outcome Session}
      (h : Past toggles d) (hrun : (d.setConsole console).run fuel = some (result, d'))
      (htrace : (d.setConsole console).Trace es (.done o)) :
      Past (toggles ++ es.filterMap (·.toggled? d.computer)) d'

theorem tally_of_past {d : Debugger} {toggles : List Nat} (h : Past toggles d) :
    Tally toggles d.breakpoints := by
  induction h with
  | new computer console => exact tally_empty
  | @loaded _ _ _ source _ hload _ =>
      rw [breakpoints_of_loaded hload]
      exact tally_empty
  | @notLoaded _ _ _ source _ _ hload ih =>
      obtain rfl := eq_of_not_loaded hload
      exact ih
  | @loadedFile _ _ _ file _ hload _ =>
      rw [breakpoints_of_loaded hload]
      exact tally_empty
  | @notLoadedFile _ _ _ file _ _ hload ih =>
      obtain rfl := eq_of_not_loaded hload
      exact ih
  | toggled _ step ih => exact ih.toggle step
  | edited _ _ ih => exact ih
  | @ran toggles d _ console _ _ _ _ _ hrun htrace ih =>
      obtain ⟨-, rfl⟩ := run_eq_of_trace htrace hrun
      have hbegin : Tally toggles (d.setConsole console).breakpoints := ih
      exact tally_of_trace hbegin htrace

/--
**A step has a breakpoint exactly if it has been toggled an odd number of times** since a
program was loaded, by calls or by commands, whatever else has been done with the debugger.

Every run that returns is a part of what has been done, with the toggles of its trace.  The
answer to a call says whether the breakpoint is set now.  In a run, program and jump table are
at every moment those that it began with; a happening that toggles nothing leaves all
breakpoints as they are, and one that toggles a step changes no other and shows truly what has
become of it.
-/
theorem breakpoints_bookkeeping :
    (∀ toggles d, Past toggles d → ∀ step, step ∈ d.breakpoints ↔ Odd (toggles.count step)) ∧
    (∀ toggles d console fuel result d', Past toggles d →
      (d.setConsole console).run fuel = some (result, d') →
      ∃ es o, (d.setConsole console).Trace es (.done o) ∧
        Past (toggles ++ es.filterMap (·.toggled? d.computer)) d') ∧
    (∀ (d : Debugger) step,
      (d.toggleBreakpoint step).1 = true ↔ step ∈ (d.toggleBreakpoint step).2.breakpoints) ∧
    (∀ (d : Debugger) es e m', d.Trace (es ++ [e]) m' → ∃ m, d.Trace es m ∧
      m.computer.program = d.computer.program ∧ m.computer.jumps = d.computer.jumps ∧
      (e.toggled? d.computer = none → m'.session.breakpoints = m.session.breakpoints) ∧
      ∀ step, e.toggled? d.computer = some step →
        (∀ other, other ∈ m'.session.breakpoints ↔
          (other ∈ m.session.breakpoints ↔ other ≠ step)) ∧
        ∃ line word isSet, e = .answered line (some (.breakpoint (some word))) ∧
          (isSet = true ↔ step ∈ m'.session.breakpoints) ∧
          m'.session.console.transcript = m.session.console.transcript
            ++ #[.read (some line), .wrote (toggleText isSet step)]) := by
  refine ⟨?_, ?_, ?_, ?_⟩
  · intro toggles d h
    exact tally_of_past h
  · intro toggles d console fuel result d' h hrun
    obtain ⟨es, o, htrace, -⟩ := exists_trace_of_run hrun
    exact ⟨es, o, htrace, .ran h hrun htrace⟩
  · intro d step
    exact d.session.toggle_answer step
  · intro d es e m' h
    obtain ⟨m, hbefore, hstep⟩ := Path.last h
    obtain ⟨hprogram, hjumps⟩ := code_of_trace hbefore
    have hchange := breakpoints_step (step_view hstep)
    have htoggled := e.toggled?_congr hprogram hjumps
    refine ⟨m, hbefore, hprogram, hjumps, ?_, ?_⟩
    · intro hnone
      rw [hchange, htoggled, hnone, Session.flipped]
    · intro step hsome
      rw [← htoggled] at hsome
      refine ⟨?_, shown_of_toggled hstep hsome⟩
      intro other
      rw [hchange, hsome]
      exact m.session.mem_toggle step other

/-- Its program has a label at step 1, and step 0 has been toggled. -/
def marking : Debugger :=
  (toggleBreakpoint { computer := { program := #[.noOp, .noOp], jumps := ⟨[("a", 1)]⟩ } } 0).2

/-- Toggles the label twice and then step 0 twice; there is no step 2. -/
def markingConsole : Console where
  script := ["b a", "", "b 2", "b 0", " "]

theorem marking_bookkeeping :
    ∃ d' es o, (marking.setConsole markingConsole).run 5 = some (.ok (), d') ∧
      (marking.setConsole markingConsole).Trace es (.done o) ∧
      es.filterMap (·.toggled? marking.computer) = [1, 1, 0, 0] ∧
      Past [0, 1, 1, 0, 0] d' ∧ 0 ∈ d'.breakpoints ∧ 1 ∉ d'.breakpoints := by
  obtain ⟨hodd, -⟩ := breakpoints_bookkeeping
  have hpast : Past [0] marking := .toggled (.new _ _) 0
  have hrun : ∃ d' es o, (marking.setConsole markingConsole).run 5 = some (.ok (), d') ∧
      (marking.setConsole markingConsole).Trace es (.done o) ∧
      es.filterMap (·.toggled? marking.computer) = [1, 1, 0, 0] := by
    -- A stop, the five lines, and then there is none left.
    exact ⟨_, _, _, rfl, .cons rfl (.cons rfl (.cons rfl (.cons rfl (.cons rfl (.cons rfl
      (.cons rfl .nil)))))), rfl⟩
  obtain ⟨d', es, o, hreturns, htrace, htoggles⟩ := hrun
  have hafter : Past ([0] ++ es.filterMap (·.toggled? marking.computer)) d' :=
    .ran hpast hreturns htrace
  rw [htoggles] at hafter
  refine ⟨d', es, o, hreturns, htrace, htoggles, hafter, (hodd _ _ hafter 0).mpr (by decide), ?_⟩
  intro hmem
  exact absurd ((hodd _ _ hafter 1).mp hmem) (by decide)

end Debugger

end Mailroom
