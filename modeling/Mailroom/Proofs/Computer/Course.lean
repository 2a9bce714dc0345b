/-
The course of a run that nobody disturbs.

A passive hook may look at the computer and stop the run, but it leaves the computer
alone and never fails.  If it also lets the run go on after every break, the run is the
row of ticks from the reset state up to the point where the row ends, whatever the hook is
asked and answers on the way: `returns_iff_ends`.  The unattended run is the case of a
hook that never asks for a stop (`run_iff_ends`).
-/
import Mailroom.Proofs.Computer.Turn
import Mailroom.Proofs.Cpu.Ending

namespace Mailroom

open Cpu (Ticks Ends)

variable {σ : Type}

namespace Hook

/-- A hook that leaves the computer alone and never fails. -/
structure Passive (h : Hook σ) : Prop where
  computer : ∀ why c s, (h.onStop why c s).computer = c
  answer : ∀ why c s, ∃ resume, (h.onStop why c s).answer = .ok resume

/-- If the hook stops this computer at all, it lets it go on. -/
def Passes (h : Hook σ) (c : Computer) : Prop :=
  ∀ s s', h.shouldStop c s = (true, s') → (h.onStop .break c s').answer = .ok .continue

/-- A passive hook that lets every computer go on. -/
structure Unobtrusive (h : Hook σ) : Prop extends h.Passive where
  passes : ∀ c, h.Passes c

/-- At the end of the program a passive hook can only quit. -/
theorem Passive.turn_finished {h : Hook σ} (hpassive : h.Passive) (c : Computer) (s : σ) :
    (h.onStop .finished (c.setHalted true) s).turn .finished
      = .over ⟨.ok (), c.setHalted true, (h.onStop .finished (c.setHalted true) s).state⟩ := by
  have hcomputer := hpassive.computer .finished (c.setHalted true) s
  obtain ⟨resume, hanswer⟩ := hpassive.answer .finished (c.setHalted true) s
  generalize h.onStop .finished (c.setHalted true) s = r at *
  rw [← hcomputer]
  cases resume with
  | quit => simp only [Reaction.turn, hanswer]
  | «continue» =>
      have hhalted : r.computer.cpu.halted = true := by rw [hcomputer]; rfl
      simp only [Reaction.turn, hanswer, hhalted, and_self, if_true]

theorem unattended_unobtrusive : unattended.Unobtrusive where
  computer why c s := rfl
  answer why c s := ⟨.quit, rfl⟩
  passes c s s' hask := by cases hask

end Hook

/-- What a run of `c` leaves behind that ends at `cpu`: no step is left, and the machine is
halted if the end was no failure. -/
def Computer.ended (c : Computer) (cpu : Cpu) (result : Except Cpu.Error Unit) : Computer :=
  { c with cpu := { cpu with pc := none, halted := result.isOk } }

/-- A failing machine has not been halted before. -/
theorem Computer.setPc_eq_ended {c : Computer} {cpu : Cpu} {e : Cpu.Error}
    (hon : cpu.halted = false) : setPc { c with cpu } none = c.ended cpu (.error e) := by
  simp only [setPc, ended, Except.isOk, Except.toBool, hon]

namespace Loop

variable {h : Hook σ} {c : Computer} {cpu next : Cpu} {s : σ}

/-! ### Ticks are made -/

/-- At a computer that it lets go on a passive hook cannot keep the loop from an instruction. -/
theorem turns_of_passes (hpassive : h.Passive) (hrun : c.isRunning = true) (hpass : h.Passes c)
    (s : σ) : ∃ es s', Turns h ⟨c, s, false⟩ es (tick ⟨c, s', false⟩).2 := by
  rcases hask : h.shouldStop c s with ⟨stop, s'⟩
  cases stop with
  | false =>
      have hturn := turn_of_cleared (l := ⟨c, s, false⟩) hrun (.asked rfl hask)
      exact ⟨_, s', Turns.single hturn⟩
  | true =>
      -- the hook is heard first, and after that it is not asked again
      have hbreak := turn_of_break (l := ⟨c, s, false⟩) hrun rfl hask
      rw [interrupt_eq h _ rfl, Reaction.turn_eq_next.mpr ⟨hpass s s' hask, by simp, rfl⟩,
        hpassive.computer] at hbreak
      have hturn := turn_of_cleared (h := h) (l := ⟨c, (h.onStop .break c s').state, true⟩) hrun
        (.resumed rfl)
      exact ⟨_, _, (Turns.single hbreak).snoc hturn⟩

theorem turns_of_tick (hpassive : h.Passive) (hpass : h.Passes c) (s : σ)
    (htick : Cpu.tick c.program c.jumps c.cpu = .ok () next) :
    ∃ es s', Turns h ⟨c, s, false⟩ es (.next ⟨{ c with cpu := next }, s', false⟩) := by
  obtain ⟨es, s', hturns⟩ := turns_of_passes hpassive (Cpu.next?_of_tick htick) hpass s
  rw [tick_of_ok (l := ⟨c, s', false⟩) htick] at hturns
  exact ⟨es, s', hturns⟩

/-- A loop under a passive hook goes as many ticks far as there are computers that the hook
lets go on. -/
theorem turns_of_ticks {n : Nat} (hpassive : h.Passive) (s : σ)
    (hticks : Ticks c.program c.jumps c.cpu.reset n cpu)
    (hpass : ∀ k mid, k < n → Ticks c.program c.jumps c.cpu.reset k mid →
      h.Passes { c with cpu := mid }) :
    ∃ es s', Turns h (start c s) es (.next ⟨{ c with cpu }, s', false⟩) := by
  induction hticks with
  | zero => exact ⟨[], s, .start⟩
  | @succ n cpu next before htick ih =>
      obtain ⟨es, s', hturns⟩ := ih fun k mid hlt => hpass k mid (by omega)
      obtain ⟨es', s'', hmore⟩ := turns_of_tick (c := { c with cpu }) hpassive
        (hpass n cpu (Nat.lt_succ_self n) before) s' htick
      exact ⟨es ++ es', s'', hturns.append hmore⟩

/-! ### The end is reached -/

theorem turns_of_end {l : Loop σ} (hpassive : h.Passive) (hrun : l.computer.isRunning = false) :
    ∃ es state, Turns h l es (.over ⟨.ok (), l.computer.setHalted true, state⟩) := by
  have hturn := turn_of_end (h := h) hrun
  rw [finish_eq h l rfl, hpassive.turn_finished] at hturn
  exact ⟨_, _, Turns.single hturn⟩

theorem turns_of_ends {result : Except Cpu.Error Unit} (hpassive : h.Passive)
    (hpass : h.Passes { c with cpu }) (s : σ) (hon : cpu.halted = false)
    (hends : Ends c.program c.jumps cpu result) :
    ∃ es o, Turns h ⟨{ c with cpu }, s, false⟩ es (.over o) ∧ o.result = result ∧
      o.close.computer = c.ended cpu result := by
  cases hends with
  | left hout =>
      have hrun : Computer.isRunning { c with cpu } = false :=
        Computer.not_running_of_outside hout
      obtain ⟨es, state, hturns⟩ := turns_of_end (l := ⟨{ c with cpu }, s, false⟩) hpassive hrun
      exact ⟨es, _, hturns, rfl, rfl⟩
  | dry htick =>
      obtain ⟨es, s', hturns⟩ := turns_of_passes hpassive (Cpu.next?_of_dry htick) hpass s
      rw [tick_of_inboxEmpty (l := ⟨{ c with cpu }, s', false⟩) htick] at hturns
      obtain ⟨es', state, hmore⟩ := turns_of_end (l := ⟨_, s', false⟩) hpassive
        (Computer.not_running_of_halted (c := Computer.setHalted { c with cpu } true) rfl)
      exact ⟨_, _, hturns.append hmore, rfl, rfl⟩
  | failed hin htick he =>
      have hrun : Computer.isRunning { c with cpu } = true :=
        Computer.isRunning_iff.mpr ⟨hon, hin⟩
      obtain ⟨es, s', hturns⟩ := turns_of_passes hpassive hrun hpass s
      rw [tick_of_error (l := ⟨{ c with cpu }, s', false⟩) htick he] at hturns
      exact ⟨_, _, hturns, rfl, Computer.setPc_eq_ended hon⟩

/-! ### Nothing else happens -/

/--
Where a run of `c` can be under an unobtrusive hook: at a machine that ticks have led to,
which may have been halted over an empty inbox, or at the end of such a row of ticks.
-/
def OnCourse (c : Computer) : Turn σ → Prop
  | .next l => ∃ n cpu, Ticks c.program c.jumps c.cpu.reset n cpu ∧
      (l.computer = { c with cpu } ∨
        (l.computer = Computer.setHalted { c with cpu } true ∧
          Cpu.tick c.program c.jumps cpu = .error .inboxEmpty cpu))
  | .over o => ∃ n cpu, Ticks c.program c.jumps c.cpu.reset n cpu ∧
      Ends c.program c.jumps cpu o.result ∧ o.close.computer = c.ended cpu o.result

theorem onCourse_of_turned {l : Loop σ} {es : List Event} {e : Event} {t : Turn σ}
    (hfree : h.Unobtrusive) (hcourse : OnCourse c (.next l)) (hturned : Turned h l es e t) :
    OnCourse c t := by
  obtain ⟨n, cpu, hticks, hat⟩ := hcourse
  have hon : cpu.halted = false := hticks.halted_eq
  -- over an empty inbox the machine has been halted, and only the end can come
  have hrunning : l.computer.isRunning = true → l.computer = { c with cpu } := by
    intro hrun
    rcases hat with hat | ⟨hat, -⟩
    · exact hat
    · rw [hat, Computer.not_running_of_halted rfl] at hrun
      cases hrun
  cases hturned with
  | @finish before r hrun hbefore hr =>
      have hends : Ends c.program c.jumps cpu (.ok ()) := by
        rcases hat with hat | ⟨-, hdry⟩
        · refine .left ?_
          intro hin
          rw [hat, Computer.isRunning_iff.mpr ⟨hon, hin⟩] at hrun
          cases hrun
        · exact .dry hdry
      have hhalted : l.computer.setHalted true = Computer.setHalted { c with cpu } true := by
        rcases hat with hat | ⟨hat, -⟩
        · rw [hat]
        · rw [hat]
          rfl
      rw [hr, hbefore, hfree.turn_finished]
      refine ⟨n, cpu, hticks, hends, ?_⟩
      rw [hhalted]
      rfl
  | @«break» s r hrun hresumed hask hr =>
      have hnext : r.turn .break = .next ⟨l.computer, r.state, true⟩ := by
        rw [Reaction.turn_eq_next, hr, hfree.computer]
        exact ⟨hfree.passes _ _ _ hask, by simp, rfl⟩
      rw [hnext]
      exact ⟨n, cpu, hticks, hat⟩
  | tick hrun hclear htick =>
      rw [hrunning hrun] at htick ⊢
      exact ⟨n + 1, _, hticks.succ htick, Or.inl rfl⟩
  | dry hrun hclear htick =>
      rw [hrunning hrun] at htick ⊢
      exact ⟨n, cpu, hticks, Or.inr ⟨rfl, htick⟩⟩
  | fail hrun hclear htick he =>
      have hcomputer := hrunning hrun
      rw [hcomputer] at hrun htick ⊢
      have hin : Cpu.Inside c.program cpu := (Computer.isRunning_iff.mp hrun).2
      exact ⟨n, cpu, hticks, .failed hin htick he, Computer.setPc_eq_ended hon⟩

theorem onCourse_of_turns {es : List Event} {t : Turn σ} (hfree : h.Unobtrusive)
    (hturns : Turns h (start c s) es t) : OnCourse c t := by
  induction hturns with
  | start => exact ⟨0, c.cpu.reset, .zero, Or.inl rfl⟩
  | @snoc es es' l t before last ih =>
      obtain ⟨us, e, t', hturn, hturned⟩ := exists_turned h l
      rw [hturn] at last
      cases last
      exact onCourse_of_turned hfree ih hturned

end Loop

/-! ### The outcome of a run -/

namespace Computer

variable {h : Hook σ} {c : Computer} {s : σ}

/-- **A run with nobody in its way is a row of ticks up to where the row ends.** -/
theorem returns_iff_ends (hfree : h.Unobtrusive) {result : Except Cpu.Error Unit}
    {computer : Computer} :
    (∃ o, c.Returns h s o ∧ o.result = result ∧ o.computer = computer) ↔
      ∃ n cpu, Ticks c.program c.jumps c.cpu.reset n cpu ∧
        Ends c.program c.jumps cpu result ∧ computer = c.ended cpu result := by
  constructor
  · rintro ⟨o, hrun, rfl, rfl⟩
    obtain ⟨es, o', hturns, rfl⟩ := returns_iff.mp hrun
    exact Loop.onCourse_of_turns hfree hturns
  · rintro ⟨n, cpu, hticks, hends, rfl⟩
    have hon : cpu.halted = false := hticks.halted_eq
    obtain ⟨es, s', hturns⟩ := Loop.turns_of_ticks hfree.toPassive s hticks
      fun k mid _ _ => hfree.passes _
    obtain ⟨es', o, hmore, hresult, hcomputer⟩ :=
      Loop.turns_of_ends hfree.toPassive (hfree.passes _) s' hon hends
    exact ⟨o.close, returns_iff.mpr ⟨_, o, hturns.append hmore, rfl⟩, hresult, hcomputer⟩

theorem run_iff_ends {o : Outcome Unit} :
    (∃ fuel, c.run fuel = some o) ↔
      ∃ n cpu, Ticks c.program c.jumps c.cpu.reset n cpu ∧
        Ends c.program c.jumps cpu o.result ∧ o.computer = c.ended cpu o.result := by
  rw [← returns_iff_ends (s := ()) Hook.unattended_unobtrusive]
  constructor
  · intro hrun
    exact ⟨o, hrun, rfl, rfl⟩
  · rintro ⟨⟨result, computer, state⟩, hrun, hresult, hcomputer⟩
    obtain ⟨result', computer', state'⟩ := o
    cases hresult
    cases hcomputer
    exact hrun

end Computer

end Mailroom
