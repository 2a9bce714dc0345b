/-
Breakpoints stop the run once for each arrival.

A breakpoint has to stop the run before its instruction and must then let it execute that
instruction, or nobody would ever get past.  The loop sees to this by not asking after it
was resumed.  `openings` counts the stops since the last attempt, and `Due` relates it to
where the run is: a loop that has been resumed has been stopped once, and a loop that has
not been resumed has just made an attempt.  So there is never a second stop before the
next attempt, and no attempt at a breakpoint without a stop.

All of this is about programs that are not empty.  Those without a single instruction
come to their end again whenever they are restarted and continued.
-/
import Mathlib.Data.List.Induction
import Mailroom.Proofs.Debugger.Stepping
import Mailroom.Proofs.Debugger.Track

namespace Mailroom

namespace Debugger

open Moment

/-! ### Stops since the last attempt -/

/-- How often the run has stopped since the last attempt. -/
def openings (es : List Happening) : Nat :=
  es.foldl (fun n e => if e.isAttempt then 0 else n + (if e.isStop then 1 else 0)) 0

section Openings

variable {es : List Happening} {e : Happening}

theorem openings_attempt (h : e.isAttempt = true) : openings (es ++ [e]) = 0 := by
  simp [openings, h]

theorem openings_still (h : e.isAttempt = false) :
    openings (es ++ [e]) = openings es + if e.isStop then 1 else 0 := by
  simp [openings, h]

theorem openings_stop (why : Stop) (c : Computer) (s : Session) :
    openings (es ++ [.stopped why c s]) = openings es + 1 :=
  openings_still rfl

theorem openings_quiet (h : e.isAttempt = false) (hquiet : e.isStop = false) :
    openings (es ++ [e]) = openings es := by
  rw [openings_still h, hquiet]
  rfl

/-- After an attempt the stops are counted anew. -/
theorem openings_since {between : List Happening} (he : e.isAttempt = true)
    (hstill : Still between) :
    openings (es ++ e :: between) = between.countP Happening.isStop := by
  induction between using List.reverseRecOn with
  | nil => exact openings_attempt he
  | append_singleton between e' ih =>
      obtain ⟨hbetween, hlast⟩ := List.forall_mem_append.mp hstill
      rw [← List.cons_append, ← List.append_assoc,
        openings_still (hlast e' (List.mem_singleton.mpr rfl)), ih hbetween]
      simp

/-- If stops were counted, there is a stop with no attempt after it. -/
theorem stop_of_openings (h : 0 < openings es) :
    ∃ es₁ why c s es₂, es = es₁ ++ .stopped why c s :: es₂ ∧ Still es₂ := by
  induction es using List.reverseRecOn with
  | nil => cases h
  | append_singleton es e ih =>
      cases hattempt : e.isAttempt with
      | true =>
          rw [openings_attempt hattempt] at h
          cases h
      | false =>
          rw [openings_still hattempt] at h
          cases e with
          | stopped why c s => exact ⟨es, why, c, s, [], rfl, by simp [Still]⟩
          | attempted _ _ _ => cases hattempt
          | answered line command =>
              obtain ⟨es₁, why, c, s, es₂, rfl, hstill⟩ := ih h
              exact ⟨es₁, why, c, s, es₂ ++ [.answered line command], by simp,
                List.forall_mem_append.mpr ⟨hstill, by simpa using hattempt⟩⟩
          | closed =>
              obtain ⟨es₁, why, c, s, es₂, rfl, hstill⟩ := ih h
              exact ⟨es₁, why, c, s, es₂ ++ [.closed], by simp,
                List.forall_mem_append.mpr ⟨hstill, by simpa using hattempt⟩⟩

end Openings

/-! ### One stop for each attempt -/

/-- How often the run has stopped since the last attempt, by where it is. -/
def Due (es : List Happening) : Moment → Prop
  | .turning l => if l.resumed = true then openings es = 1 ∧ l.computer.isRunning = true
      else openings es = 0
  | .menu why c _ => openings es = 1 ∧
      -- Otherwise a run might be continued that comes to its end again at once.
      (c.isRunning = true ∨ why = .finished ∧ c.cpu.halted = true)
  | .done _ => openings es ≤ 1

theorem due_step {es : List Happening} {m m' : Moment} {e : Happening} (h : Due es m)
    (hstep : Step m e m') (hprogram : 0 < m.computer.program.size) : Due (es ++ [e]) m' := by
  cases hstep with
  | @finish l _ hrun hc =>
      have hnone : l.resumed = false ∧ openings es = 0 := by
        simpa [Due, hrun] using h
      subst hc
      refine ⟨?_, Or.inr ⟨rfl, rfl⟩⟩
      rw [openings_stop, hnone.2]
  | «break» hrun hask hat =>
      have hnone : openings es = 0 := by
        simpa [Due, hask] using h
      refine ⟨?_, Or.inl hrun⟩
      rw [openings_stop, hnone]
  | tick | dry => exact openings_attempt rfl
  | @fail l e _ _ _ _ =>
      have hnone : openings (es ++ [.attempted l.computer l.state (.error e)]) = 0 :=
        openings_attempt rfl
      show openings _ ≤ 1
      omega
  | closed | ended | quit => exact Nat.le_of_eq ((openings_quiet rfl rfl).trans h.1)
  | ignored | stayed => exact ⟨(openings_quiet rfl rfl).trans h.1, h.2⟩
  | restarted _ _ _ =>
      refine ⟨(openings_quiet rfl rfl).trans h.1, Or.inl ?_⟩
      exact Computer.isRunning_iff.mpr ⟨rfl, 0, rfl, hprogram⟩
  | continued _ _ _ hwhy =>
      exact ⟨(openings_quiet rfl rfl).trans h.1, h.2.resolve_right hwhy⟩
  | stepped _ _ _ hon =>
      refine ⟨(openings_quiet rfl rfl).trans h.1, h.2.resolve_right ?_⟩
      intro hend
      rw [hon] at hend
      cases hend.2

theorem due_of_trace {d : Debugger} {es : List Happening} {m : Moment}
    (hprogram : 0 < d.computer.program.size) (h : d.Trace es m) : Due es m := by
  induction h with
  | nil => exact rfl
  | snoc hbefore hstep ih =>
      obtain ⟨cpu, htrack⟩ := onTrack_of_tracked (tracked_of_trace hbefore)
      refine due_step ih (step_view hstep) ?_
      rw [htrack.program]
      exact hprogram

theorem openings_le_one {d : Debugger} {es : List Happening} {m : Moment}
    (hprogram : 0 < d.computer.program.size) (h : d.Trace es m) : openings es ≤ 1 := by
  have hdue := due_of_trace hprogram h
  cases m with
  | turning l =>
      simp only [Due] at hdue
      split at hdue
      · omega
      · omega
  | menu why c s => exact Nat.le_of_eq hdue.1
  | done o => exact hdue

/-- An attempt at a breakpoint comes after a stop. -/
theorem openings_of_breakpoint {d : Debugger} {es : List Happening} {m : Moment} {c : Computer}
    {s : Session} {result : Except Cpu.Error Unit} {pc : Nat}
    (hprogram : 0 < d.computer.program.size) (h : d.Trace (es ++ [.attempted c s result]) m)
    (hpc : c.cpu.pc = some pc) (hset : pc ∈ s.breakpoints) : openings es = 1 := by
  obtain ⟨m₁, hbefore, hstep⟩ := Path.last h
  have hdue := due_of_trace hprogram hbefore
  have hat : (Session.shouldStop c s).1 = true :=
    Session.shouldStop_eq_true.mpr ⟨pc, hpc, Or.inl hset⟩
  have hresumed : ∀ l, Due es (.turning l) →
      l.resumed = true ∨ (Session.shouldStop c s).1 = false → openings es = 1 := by
    intro l hl hask
    have hgo : l.resumed = true := hask.resolve_right (by simp [hat])
    simp only [Due, hgo, if_true] at hl
    exact hl.1
  cases step_view hstep with
  | tick _ hask _ => exact hresumed _ hdue hask
  | dry _ hask _ => exact hresumed _ hdue hask
  | fail _ hask _ _ => exact hresumed _ hdue hask

/-! ### From the first stop on -/

/-- A run of a program that is not empty stops at its first instruction. -/
theorem opening_stop {d : Debugger} (hprogram : 0 < d.computer.program.size) :
    d.opening.step =
      some (stop .break { d.computer with cpu := d.computer.cpu.reset } d.openSession) := by
  refine step_of_breakpoint (Computer.isRunning_iff.mpr ⟨rfl, 0, rfl, hprogram⟩) rfl ?_
  exact Session.shouldStop_eq_true.mpr ⟨0, rfl, Or.inr (Session.mem_arm.mpr (Or.inl rfl))⟩

/--
**Breakpoints are hit once for each arrival, and no other stops are made.**

The first thing that happens is a stop at step 0, and it forgets all temporary
breakpoints, also those of an earlier run.  No instruction at a breakpoint is attempted
without a stop since the attempt before it, and between two attempts there is at most one
stop.  The stop after the command to continue is the one at the end, or one at a
breakpoint that the machine has ticked to without coming by another.

These are statements about runs, because the traces of a debugger are what happens in its
runs, whether they return or not.
-/
theorem breakpoint_hit_on_every_arrival {d : Debugger}
    (hprogram : 0 < d.computer.program.size) :
    (∃ c s, d.opening.step = some (.stopped .break c s, .menu .break c s) ∧
      c = { d.computer with cpu := d.computer.cpu.reset } ∧ c.cpu.pc = some 0 ∧
      c.cpu.steps = 0 ∧ s.temporary = ∅ ∧ s.breakpoints = d.breakpoints) ∧
    (∀ (es : List Happening) (c : Computer) (s : Session) (result : Except Cpu.Error Unit)
      (m : Moment) (pc : Nat), d.Trace (es ++ [.attempted c s result]) m →
      c.cpu.pc = some pc → pc ∈ s.breakpoints →
      ∃ es₁ why c' s' es₂, es = es₁ ++ .stopped why c' s' :: es₂ ∧ Still es₂) ∧
    (∀ (es between : List Happening) (c c' : Computer) (s s' : Session)
      (result result' : Except Cpu.Error Unit) (m : Moment), Still between →
      d.Trace (es ++ .attempted c s result :: between ++ [.attempted c' s' result']) m →
      between.countP Happening.isStop ≤ 1) ∧
    (∀ (es₁ es₂ : List Happening) (line : String) (why : Stop) (c : Computer) (s : Session)
      (m : Moment), Quiet es₂ →
      d.Trace (es₁ ++ .answered line (some .continue) :: (es₂ ++ [.stopped why c s])) m →
      ∃ why₀ c₀ s₀, d.Trace es₁ (.menu why₀ c₀ s₀) ∧ s.breakpoints = s₀.breakpoints ∧
        (∀ e ∈ es₂, e.isAttempt = true) ∧
        (∀ (c' : Computer) (s' : Session) (result : Except Cpu.Error Unit) (pc : Nat),
          .attempted c' s' result ∈ es₂.tail → c'.cpu.pc = some pc → pc ∉ s.breakpoints) ∧
        (why = .finished ∨ ∃ pc, 0 < es₂.length ∧
          Cpu.Ticks c₀.program c₀.jumps c₀.cpu es₂.length c.cpu ∧
          c.cpu.pc = some pc ∧ pc ∈ s.breakpoints)) ∧
    TracesAreRuns d := by
  refine ⟨⟨_, _, opening_stop hprogram, rfl, rfl, rfl, ?_, ?_⟩, ?_, ?_, ?_, tracesAreRuns d⟩
  · exact Session.opening_temporary _ _ _
  · exact Session.opening_breakpoints _ _ _
  · intro es c s result m pc h hpc hset
    have hone := openings_of_breakpoint hprogram h hpc hset
    exact stop_of_openings (hone ▸ Nat.one_pos)
  · intro es between c c' s s' result result' m hstill h
    obtain ⟨m₁, hbefore, -⟩ := Path.last h
    have hcount : openings (es ++ .attempted c s result :: between)
        = between.countP Happening.isStop := openings_since rfl hstill
    rw [← hcount]
    exact openings_le_one hprogram hbefore
  · intro es₁ es₂ line why c s m hquiet h
    exact next_stop hquiet h

/-- Goes round three steps with a breakpoint at the second of them. -/
def revolving : Debugger where
  computer := { program := #[.noOp, .noOp, .jump .always (.step 0)] }
  session := { breakpoints := {1}, console := { script := ["c", "", "b 1", "c"] } }

/--
The first stop is at step 0.  The first line leads to the breakpoint after one instruction,
and the second line, which repeats the command, once round to the same breakpoint.
-/
theorem revolving_hits :
    ∃ c₀ s₀ es₁ c₁ s₁ es₂ c₂ s₂,
      revolving.opening.step = some (.stopped .break c₀ s₀, .menu .break c₀ s₀) ∧
      c₀.cpu.pc = some 0 ∧ s₀.temporary = ∅ ∧ 1 ∈ s₀.breakpoints ∧
      revolving.Trace ([.stopped .break c₀ s₀]
        ++ .answered "c" (some .continue) :: (es₁ ++ [.stopped .break c₁ s₁])
        ++ .answered "" (some .continue) :: (es₂ ++ [.stopped .break c₂ s₂]))
        (.menu .break c₂ s₂) ∧
      es₁.length = 1 ∧ c₁.cpu.pc = some 1 ∧ c₁.cpu.steps = 1 ∧ 1 ∈ s₁.breakpoints ∧
      es₂.length = 3 ∧ c₂.cpu.pc = some 1 ∧ c₂.cpu.steps = 4 ∧ 1 ∈ s₂.breakpoints := by
  obtain ⟨⟨c₀, s₀, hstop, -, hpc₀, -, htemporary, hkept⟩, -, -, hcontinued, -⟩ :=
    breakpoint_hit_on_every_arrival (d := revolving) (by decide)
  have hset : ∀ es₁ es₂ line c s, es₂.countP Happening.isStop = 0 → c.cpu.pc = some 1 →
      revolving.Trace (es₁ ++ .answered line (some .continue) :: (es₂ ++ [.stopped .break c s]))
        (.menu .break c s) → 1 ∈ s.breakpoints := by
    intro es₁ es₂ line c s hquiet hpc htrace
    obtain ⟨_, _, _, -, -, -, -, hwhy⟩ := hcontinued es₁ es₂ line .break c s _
      (by simpa [Quiet] using hquiet) htrace
    obtain ⟨pc, -, -, hpc', hset⟩ := hwhy.resolve_left (by simp)
    rw [hpc] at hpc'
    cases hpc'
    exact hset
  have hrun : ∃ c s es₁ c₁ s₁ es₂ c₂ s₂,
      revolving.opening.step = some (.stopped .break c s, .menu .break c s) ∧
      Path (.menu .break c s)
        (.answered "c" (some .continue) :: (es₁ ++ [.stopped .break c₁ s₁]))
        (.menu .break c₁ s₁) ∧
      Path (.menu .break c₁ s₁)
        (.answered "" (some .continue) :: (es₂ ++ [.stopped .break c₂ s₂]))
        (.menu .break c₂ s₂) ∧
      (es₁.countP Happening.isStop = 0 ∧ es₁.length = 1 ∧ c₁.cpu.pc = some 1 ∧
        c₁.cpu.steps = 1) ∧
      es₂.countP Happening.isStop = 0 ∧ es₂.length = 3 ∧ c₂.cpu.pc = some 1 ∧
        c₂.cpu.steps = 4 :=
    ⟨_, _, [_], _, _, [_, _, _], _, _, rfl, .cons rfl (.cons rfl (.cons rfl .nil)),
      .cons rfl (.cons rfl (.cons rfl (.cons rfl (.cons rfl .nil)))), ⟨rfl, rfl, rfl, rfl⟩,
      rfl, rfl, rfl, rfl⟩
  obtain ⟨c, s, es₁, c₁, s₁, es₂, c₂, s₂, hopens, hfirst, hagain,
    ⟨hquiet₁, hlen₁, hpc₁, hsteps₁⟩, hquiet₂, hlen₂, hpc₂, hsteps₂⟩ := hrun
  rw [hstop] at hopens
  cases hopens
  have htrace₁ := (Path.single hstop).append hfirst
  have htrace₂ := htrace₁.append hagain
  refine ⟨c₀, s₀, es₁, c₁, s₁, es₂, c₂, s₂, hstop, hpc₀, htemporary, ?_, htrace₂,
    hlen₁, hpc₁, hsteps₁, hset _ _ _ _ _ hquiet₁ hpc₁ htrace₁,
    hlen₂, hpc₂, hsteps₂, hset _ _ _ _ _ hquiet₂ hpc₂ htrace₂⟩
  rw [hkept]
  decide

end Debugger

end Mailroom
