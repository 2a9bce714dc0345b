/-
What happens between two stops.

From the moment the session gives control back to the next stop the loop is on its own.
It attempts one instruction after the other and asks the session before each of them,
except for the first one.  Nobody can touch the breakpoints meanwhile, so an instruction
that is attempted without a stop was at none, and a stop before an instruction is at one
of those that were there from the beginning.
-/
import Mailroom.Proofs.Debugger.Path

namespace Mailroom

namespace Debugger

open Moment

def Happening.isStop : Happening → Bool
  | .stopped _ _ _ => true
  | .attempted _ _ _ | .answered _ _ | .closed => false

def Happening.isAttempt : Happening → Bool
  | .attempted _ _ _ => true
  | .stopped _ _ _ | .answered _ _ | .closed => false

/-- No stop is among these happenings. -/
def Quiet (es : List Happening) : Prop :=
  ∀ e ∈ es, e.isStop = false

/-- No attempt is among these happenings. -/
def Still (es : List Happening) : Prop :=
  ∀ e ∈ es, e.isAttempt = false

/-! ### The loop on its own -/

/-- On its way from `l` to `l'` the loop has made the attempts `es`. -/
structure Stretch (l : Loop Session) (es : List Happening) (l' : Loop Session) : Prop where
  program : l'.computer.program = l.computer.program
  jumps : l'.computer.jumps = l.computer.jumps
  /-- The session is not touched. -/
  state : l'.state = l.state
  attempts : ∀ e ∈ es, ∃ c result, e = .attempted c l.state result
  /-- A resumed loop is asked for a stop only after the first attempt. -/
  resumed : l'.resumed = true ↔ l.resumed = true ∧ es = []
  /-- Nothing but the first attempt can be at a breakpoint. -/
  passed : ∀ c s result, .attempted c s result ∈ es.tail → (Session.shouldStop c s).1 = false
  /-- A loop that has not halted has met no failure. -/
  ticks : l'.computer.cpu.halted = false → Cpu.Ticks l.computer.program l.computer.jumps
    l.computer.cpu es.length l'.computer.cpu

namespace Stretch

variable {l l' : Loop Session} {es : List Happening}

theorem refl (hresumed : l.resumed = true) : Stretch l [] l where
  program := rfl
  jumps := rfl
  state := rfl
  attempts := by simp
  resumed := by simp [hresumed]
  passed := by simp
  ticks := by
    intro _
    exact .zero

/-- One attempt more. -/
theorem snoc (h : Stretch l es l') (hrun : l'.computer.isRunning = true)
    (hask : l'.resumed = true ∨ (Session.shouldStop l'.computer l'.state).1 = false)
    {cpu : Cpu} {result : Except Cpu.Error Unit}
    (htick : cpu.halted = false → Cpu.tick l'.computer.program l'.computer.jumps l'.computer.cpu
      = .ok () cpu) :
    Stretch l (es ++ [.attempted l'.computer l'.state result])
      ⟨{ l'.computer with cpu }, l'.state, false⟩ where
  program := h.program
  jumps := h.jumps
  state := h.state
  attempts := by
    intro e he
    rcases List.mem_append.mp he with he | he
    · exact h.attempts e he
    · rw [List.mem_singleton.mp he, h.state]
      exact ⟨_, _, rfl⟩
  resumed := by simp
  passed := by
    intro c' s' result' hmem
    cases es with
    | nil => cases hmem
    | cons e es =>
        rcases List.mem_append.mp hmem with hmem | hmem
        · exact h.passed c' s' result' hmem
        · cases List.mem_singleton.mp hmem
          refine hask.resolve_left ?_
          intro hresumed
          cases (h.resumed.mp hresumed).2
  ticks := by
    intro hon
    have hbefore := h.ticks (Computer.isRunning_iff.mp hrun).1
    rw [List.length_append]
    refine .succ hbefore ?_
    rw [← h.program, ← h.jumps]
    exact htick hon

theorem isAttempt (h : Stretch l es l') : ∀ e ∈ es, e.isAttempt = true := by
  intro e he
  obtain ⟨_, _, rfl⟩ := h.attempts e he
  rfl

/-- No attempt but the first one is at a breakpoint that was set from the beginning. -/
theorem not_mem_breakpoints (h : Stretch l es l') {c : Computer} {s : Session}
    {result : Except Cpu.Error Unit} {pc : Nat} (hmem : .attempted c s result ∈ es.tail)
    (hpc : c.cpu.pc = some pc) : pc ∉ l.state.breakpoints := by
  intro hset
  obtain ⟨_, _, heq⟩ := h.attempts _ (List.mem_of_mem_tail hmem)
  cases heq
  have hasked := h.passed _ _ _ hmem
  rw [Session.shouldStop_eq_true.mpr ⟨pc, hpc, Or.inl hset⟩] at hasked
  cases hasked

/-- A loop that is asked for a stop has made an attempt. -/
theorem length_pos (h : Stretch l es l') (hresumed : l.resumed = true)
    (hask : l'.resumed = false) : 0 < es.length := by
  rw [List.length_pos_iff]
  intro hnil
  rw [h.resumed.mpr ⟨hresumed, hnil⟩] at hask
  cases hask

end Stretch

/-- **Without a stop a resumed loop either goes on or the run is over.** -/
theorem stretch_of_path {l : Loop Session} {es : List Happening} {m : Moment}
    (h : Path (.turning l) es m) (hresumed : l.resumed = true) (hquiet : Quiet es) :
    (∃ l', m = .turning l' ∧ Stretch l es l') ∨ ∃ o, m = .done o := by
  induction h with
  | nil => exact Or.inl ⟨l, rfl, .refl hresumed⟩
  | @snoc es m₁ m₂ e _ hstep ih =>
      obtain ⟨hbefore, hlast⟩ := List.forall_mem_append.mp hquiet
      rcases ih hbefore with ⟨l', rfl, hstretch⟩ | ⟨o, rfl⟩
      · cases step_view hstep with
        | finish _ _ => cases hlast _ (List.mem_singleton.mpr rfl)
        | «break» _ _ _ => cases hlast _ (List.mem_singleton.mpr rfl)
        | tick hrun hask htick =>
            refine Or.inl ⟨_, rfl, hstretch.snoc hrun hask ?_⟩
            intro _
            exact htick
        | dry hrun hask _ =>
            refine Or.inl ⟨_, rfl, hstretch.snoc hrun hask ?_⟩
            intro hon
            have hoff : true = false := hon
            cases hoff
        | fail _ _ _ _ => exact Or.inr ⟨_, rfl⟩
      · cases hstep

/-! ### From the command to continue to the next stop -/

/-- While the menu is open no temporary breakpoint is left. -/
def Forgotten : Moment → Prop
  | .menu _ _ s => s.temporary = ∅
  | .turning _ | .done _ => True

theorem forgotten_step {m m' : Moment} {e : Happening} (h : Forgotten m)
    (hstep : Step m e m') : Forgotten m' := by
  cases hstep with
  | finish | «break» => exact Session.opening_temporary _ _ _
  | ignored | stayed | restarted => exact h
  | tick | dry | fail | closed | continued | ended | stepped | quit => trivial

theorem forgotten_of_trace {d : Debugger} {es : List Happening} {m : Moment}
    (h : d.Trace es m) : Forgotten m := by
  induction h with
  | nil => trivial
  | snoc _ hstep ih => exact forgotten_step ih (step_view hstep)

/-- A run that is continued goes on with the breakpoints of the menu and with no temporary one. -/
theorem continued_of_trace {d : Debugger} {es rest : List Happening} {line : String}
    {m : Moment} (h : d.Trace (es ++ .answered line (some .continue) :: rest) m)
    (hrest : rest ≠ []) :
    ∃ l why s, d.Trace es (.menu why l.computer s) ∧ Path (.turning l) rest m ∧
      l.resumed = true ∧ l.state.temporary = ∅ ∧ l.state.breakpoints = s.breakpoints := by
  obtain ⟨m₁, hbefore, hafter⟩ := Path.split h
  obtain ⟨m₂, hstep, hpath⟩ := Path.head hafter
  have hforgotten := forgotten_of_trace hbefore
  cases step_view hstep with
  | @continued why c s _ console _ _ _ =>
      exact ⟨⟨c, { s with console, lastCommand := some .continue }, true⟩, why, s,
        hbefore, hpath, rfl, hforgotten, rfl⟩
  | ended _ _ _ _ => exact absurd (Path.of_done hpath).1 hrest
  | stayed _ _ _ _ hcontinue _ _ => exact absurd rfl hcontinue

/-- Between the command to continue and the next stop breakpoints are passed by nobody. -/
theorem next_stop {d : Debugger} {es₁ es₂ : List Happening} {line : String} {why : Stop}
    {c : Computer} {s : Session} {m : Moment} (hquiet : Quiet es₂)
    (h : d.Trace (es₁ ++ .answered line (some .continue) :: (es₂ ++ [.stopped why c s])) m) :
    ∃ why₀ c₀ s₀, d.Trace es₁ (.menu why₀ c₀ s₀) ∧ s.breakpoints = s₀.breakpoints ∧
      (∀ e ∈ es₂, e.isAttempt = true) ∧
      (∀ c' s' result pc, .attempted c' s' result ∈ es₂.tail → c'.cpu.pc = some pc →
        pc ∉ s.breakpoints) ∧
      (why = .finished ∨ ∃ pc, 0 < es₂.length ∧
        Cpu.Ticks c₀.program c₀.jumps c₀.cpu es₂.length c.cpu ∧
        c.cpu.pc = some pc ∧ pc ∈ s.breakpoints) := by
  obtain ⟨l, why₀, s₀, htrace, hpath, hresumed, hforgotten, hkept⟩ :=
    continued_of_trace h (by simp)
  obtain ⟨m₁, hattempts, hstop⟩ := Path.last hpath
  rcases stretch_of_path hattempts hresumed hquiet with ⟨l', rfl, hstretch⟩ | ⟨o, rfl⟩
  · have hpassed : ∀ c' s' result pc, .attempted c' s' result ∈ es₂.tail →
        c'.cpu.pc = some pc → pc ∉ s₀.breakpoints := by
      intro c' s' result pc hmem hpc
      rw [← hkept]
      exact hstretch.not_mem_breakpoints hmem hpc
    have hset : l'.state.breakpoints = s₀.breakpoints := by
      rw [hstretch.state, hkept]
    cases step_view hstop with
    | finish _ _ =>
        have hs := (Session.opening_breakpoints l'.state .finished c).trans hset
        exact ⟨why₀, l.computer, s₀, htrace, hs, hstretch.isAttempt, by rwa [hs], Or.inl rfl⟩
    | «break» hrun hask hat =>
        have hs := (Session.opening_breakpoints l'.state .break l'.computer).trans hset
        refine ⟨why₀, l.computer, s₀, htrace, hs, hstretch.isAttempt, by rwa [hs], Or.inr ?_⟩
        obtain ⟨pc, hpc, hset' | harmed⟩ := Session.shouldStop_eq_true.mp hat
        · have hlength : 0 < es₂.length := hstretch.length_pos hresumed hask
          have hticks := hstretch.ticks (Computer.isRunning_iff.mp hrun).1
          refine ⟨pc, hlength, hticks, hpc, ?_⟩
          rw [hs, ← hset]
          exact hset'
        · rw [hstretch.state, hforgotten] at harmed
          exact absurd harmed Std.ExtTreeSet.not_mem_empty
  · cases hstop

end Debugger

end Mailroom
