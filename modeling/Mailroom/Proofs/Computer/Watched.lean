/-
Runs under hooks that do not interfere.

A hook that only watches, and lets the run go on whenever it has stopped it, is invisible:
what the computer does depends on its program, its jump table, its memory and its inbox,
and on nothing that an earlier run has left in it.  A hook that quits at a bound cuts the
run off: what is left is its beginning, whether the run ends before the bound, right at it,
later or never.

How long a run is can be read off its events, and is infinite for a run that never ends
(`Lasts`).  `lasts_of_ends` and `lasts_of_ticks` connect this to the row of ticks.
-/
import Mathlib.Data.ENat.Lattice
import Mailroom.Proofs.Computer.Course
import Mailroom.Proofs.Computer.Protocol

namespace Mailroom

open Cpu (Ticks Ends)

variable {σ : Type}

/-! ### The hooks -/

namespace Hook

/-- A hook that only watches the computer, whenever it wants to. -/
structure Watching (h : Hook σ) : Prop extends h.Passive where
  continues : ∀ c s, (h.onStop .break c s).answer = .ok .continue

/-- A hook that stops a run once `bound` instructions are completed, and quits at any stop. -/
structure Limiting (bound : Nat) (h : Hook σ) : Prop extends h.Passive where
  asks : ∀ c s, (h.shouldStop c s).1 = decide (bound ≤ c.cpu.steps)
  quits : ∀ why c s, (h.onStop why c s).answer = .ok .quit

theorem Watching.unobtrusive {h : Hook σ} (hwatch : h.Watching) : h.Unobtrusive where
  toPassive := hwatch.toPassive
  passes c _ s' _ := hwatch.continues c s'

/-- Below the bound a limiting hook does not stop the run. -/
theorem Limiting.passes {bound k : Nat} {h : Hook σ} (hlimit : h.Limiting bound) {c : Computer}
    {cpu : Cpu} (hlt : k < bound) (hticks : Ticks c.program c.jumps c.cpu.reset k cpu) :
    h.Passes { c with cpu } := by
  intro s s' hask
  have hasks := hlimit.asks { c with cpu } s
  rw [hask] at hasks
  have hle : bound ≤ cpu.steps := of_decide_eq_true hasks.symm
  rw [hticks.steps_of_reset] at hle
  omega

/-- At the bound it does. -/
theorem Limiting.stops {bound : Nat} {h : Hook σ} (hlimit : h.Limiting bound) {c : Computer}
    {cpu : Cpu} (hticks : Ticks c.program c.jumps c.cpu.reset bound cpu) (s : σ) :
    ∃ s', h.shouldStop { c with cpu } s = (true, s') := by
  have hasks := hlimit.asks { c with cpu } s
  have hle : bound ≤ cpu.steps := Nat.le_of_eq hticks.steps_of_reset.symm
  rw [decide_eq_true hle] at hasks
  exact ⟨(h.shouldStop { c with cpu } s).2, Prod.ext hasks rfl⟩

theorem limit_limiting (bound : Nat) : (limit bound).Limiting bound where
  computer _ _ _ := rfl
  answer _ _ _ := ⟨.quit, rfl⟩
  asks _ _ := rfl
  quits _ _ _ := rfl

end Hook

/-! ### The length of a run -/

/-- Counts the instructions that are completed. -/
def Event.count (n : Nat) : Event → Nat
  | ticked _ _ (.ok _) => n + 1
  | _ => n

namespace Loop

variable {h : Hook σ} {l : Loop σ} {es : List Event} {e : Event} {t : Turn σ}

theorem Turned.count_eq (hpassive : h.Passive) (hturned : Turned h l es e t) :
    t.computer.cpu.steps = (es ++ [e]).foldl Event.count l.computer.cpu.steps := by
  have hearlier : es.foldl Event.count l.computer.cpu.steps = l.computer.cpu.steps := by
    rcases hturned.earlier with rfl | ⟨-, -, answer, rfl⟩ <;> rfl
  rw [hturned.computer_eq, List.foldl_append, hearlier]
  cases hturned with
  | finish hrun hbefore hr =>
      show _ = l.computer.cpu.steps
      rw [hr, hbefore, Event.after, hpassive.computer]
      rfl
  | «break» hrun hresumed hask hr =>
      show _ = l.computer.cpu.steps
      rw [hr, Event.after, hpassive.computer]
  | tick hrun hclear htick => exact (Cpu.ticked_of_advance (Cpu.tick_eq_ok.mp htick)).steps
  | dry hrun hclear htick => rfl
  | fail hrun hclear htick he => rfl

/-- Under a passive hook the machine counts the instructions that are completed. -/
theorem Turns.count_eq (hpassive : h.Passive) (hturns : Turns h l es t) :
    t.computer.cpu.steps = es.foldl Event.count l.computer.cpu.steps := by
  induction hturns with
  | start => rfl
  | @snoc es es' l' t before last ih =>
      obtain ⟨us, e, t', hturn, hturned⟩ := exists_turned h l'
      rw [hturn] at last
      cases last
      rw [hturned.count_eq hpassive, List.foldl_append (l := es), ← ih]
      rfl

end Loop

namespace Computer

variable {c : Computer} {cpu : Cpu} {result : Except Cpu.Error Unit} {n m : ℕ∞} {k : Nat}

/-- The unattended run of `c` makes `n` ticks, infinitely many if it never ends. -/
inductive Lasts (c : Computer) : ℕ∞ → Prop
  | ends {fuel n : Nat} {o : Outcome Unit}
      (hrun : c.observe .unattended Event.count 0 fuel () = some (n, o)) : Lasts c n
  | forever (hrun : ∀ fuel, c.run fuel = none) : Lasts c ⊤

theorem lasts_of_ends (hticks : Ticks c.program c.jumps c.cpu.reset k cpu)
    (hends : Ends c.program c.jumps cpu result) : c.Lasts k := by
  have hfree := Hook.unattended_unobtrusive
  obtain ⟨es, s, hturns⟩ := Loop.turns_of_ticks hfree.toPassive () hticks
    fun _ _ _ _ => hfree.passes _
  obtain ⟨es', o, hmore, -, hcomputer⟩ :=
    Loop.turns_of_ends hfree.toPassive (hfree.passes _) s hticks.halted_eq hends
  have hwhole := hturns.append hmore
  have hcount : k = (es ++ es').foldl Event.count 0 := by
    have hsteps : o.computer.cpu.steps = cpu.steps :=
      congrArg (fun c : Computer => c.cpu.steps) hcomputer
    calc k = o.computer.cpu.steps := by rw [hsteps, hticks.steps_of_reset]
      _ = (es ++ es').foldl Event.count 0 := hwhole.count_eq hfree.toPassive
  obtain ⟨fuel, hrun⟩ := observe_iff.mpr ⟨_, o, hwhole, hcount, rfl⟩
  exact .ends hrun

/-- A run lasts at least as long as it can tick. -/
theorem lasts_of_ticks (hticks : Ticks c.program c.jumps c.cpu.reset k cpu) :
    ∃ n, c.Lasts n ∧ (k : ℕ∞) ≤ n := by
  by_cases hover : ∃ fuel o, c.run fuel = some o
  · obtain ⟨fuel, o, hrun⟩ := hover
    obtain ⟨k', cpu', hticks', hends, -⟩ := run_iff_ends.mp ⟨fuel, hrun⟩
    exact ⟨k', lasts_of_ends hticks' hends, by exact_mod_cast hticks'.le_of_ends hends hticks⟩
  · refine ⟨⊤, .forever ?_, le_top⟩
    intro fuel
    rw [Option.eq_none_iff_forall_ne_some]
    intro o hrun
    exact hover ⟨fuel, o, hrun⟩

/-- A run has one length. -/
theorem Lasts.unique (hn : c.Lasts n) (hm : c.Lasts m) : n = m := by
  have not_returns : (∀ fuel, c.run fuel = none) → ∀ {o}, ¬ c.Returns .unattended () o := by
    rintro hnone o ⟨fuel, hrun⟩
    have hnone := hnone fuel
    rw [run, hrun] at hnone
    cases hnone
  have hreturns : ∀ {fuel k : Nat} {o : Outcome Unit},
      c.observe .unattended Event.count 0 fuel () = some (k, o) →
        c.Returns .unattended () o ∧ k = o.computer.cpu.steps := by
    intro fuel k o hrun
    obtain ⟨es, o', hturns, rfl, rfl⟩ := observe_iff.mp ⟨fuel, hrun⟩
    exact ⟨returns_iff.mpr ⟨es, o', hturns, rfl⟩,
      (hturns.count_eq Hook.unattended_unobtrusive.toPassive).symm⟩
  cases hn with
  | ends hrun =>
      obtain ⟨hreturn, hk⟩ := hreturns hrun
      cases hm with
      | ends hrun' =>
          obtain ⟨hreturn', hk'⟩ := hreturns hrun'
          rw [hk, hk', hreturn.unique hreturn']
      | forever hnone => exact absurd hreturn (not_returns hnone)
  | forever hnone =>
      cases hm with
      | ends hrun' => exact absurd (hreturns hrun').1 (not_returns hnone)
      | forever => rfl

/-! ### Watching -/

/-- Two computers with the same work before them, whatever they have done so far. -/
structure SameWork (c c' : Computer) : Prop where
  program : c.program = c'.program
  jumps : c.jumps = c'.jumps
  memory : c.cpu.memory = c'.cpu.memory
  inbox : c.cpu.inbox = c'.cpu.inbox

/-- Nothing else survives a reset. -/
theorem SameWork.reset_eq {c c' : Computer} (hsame : c.SameWork c') :
    c.cpu.reset = c'.cpu.reset := by
  simp only [Cpu.reset, hsame.memory, hsame.inbox]

variable {h : Hook σ} {c' : Computer} {s : σ}

/-- A run under an unobtrusive hook ends like the unattended run of any computer with the
same work. -/
theorem returns_iff_run (hfree : h.Unobtrusive) (hsame : c.SameWork c') :
    (∃ o, c.Returns h s o ∧ o.result = result ∧ o.computer.cpu = cpu) ↔
      ∃ fuel o, c'.run fuel = some o ∧ o.result = result ∧ o.computer.cpu = cpu := by
  constructor
  · rintro ⟨o, hrun, rfl, rfl⟩
    obtain ⟨n, cpu, hticks, hends, hcomputer⟩ := (returns_iff_ends hfree).mp ⟨o, hrun, rfl, rfl⟩
    rw [hsame.program, hsame.jumps] at hends
    rw [hsame.program, hsame.jumps, hsame.reset_eq] at hticks
    obtain ⟨fuel, hrun'⟩ :=
      run_iff_ends (o := ⟨o.result, c'.ended cpu o.result, ()⟩) |>.mpr ⟨n, cpu, hticks, hends, rfl⟩
    exact ⟨fuel, _, hrun', rfl, by rw [hcomputer]; rfl⟩
  · rintro ⟨fuel, o, hrun, rfl, rfl⟩
    obtain ⟨n, cpu, hticks, hends, hcomputer⟩ := run_iff_ends.mp ⟨fuel, hrun⟩
    rw [← hsame.program, ← hsame.jumps] at hends
    rw [← hsame.program, ← hsame.jumps, ← hsame.reset_eq] at hticks
    obtain ⟨o', hrun', hresult, hcomputer'⟩ :=
      (returns_iff_ends (h := h) (s := s) hfree).mpr ⟨n, cpu, hticks, hends, rfl⟩
    exact ⟨o', hrun', hresult, by rw [hcomputer, hcomputer']; rfl⟩

end Computer

/-! ### Limiting -/

/-- The outcome shows what `n` ticks make of `c`, up to the step and the `halted` flag. -/
def Outcome.After (c : Computer) (n : Nat) (o : Outcome σ) : Prop :=
  ∃ cpu, Ticks c.program c.jumps c.cpu.reset n cpu ∧
    o.computer = { c with cpu := { cpu with
      pc := o.computer.cpu.pc, halted := o.computer.cpu.halted } }

namespace Computer

variable {h : Hook σ} {c : Computer} {cpu : Cpu} {s : σ} {result : Except Cpu.Error Unit}
  {bound k : Nat}

/-- At the bound the run is over, and no instruction is executed any more. -/
theorem returns_at_limit (hlimit : h.Limiting bound)
    (hticks : Ticks c.program c.jumps c.cpu.reset bound cpu) :
    ∃ o, c.Returns h s o ∧ o.result = .ok () ∧ o.After c bound := by
  obtain ⟨es, s', hturns⟩ := Loop.turns_of_ticks hlimit.toPassive s hticks
    fun k mid hlt hmid => hlimit.passes hlt hmid
  cases hrun : Computer.isRunning { c with cpu } with
  | false =>
      obtain ⟨es', state, hmore⟩ :=
        Loop.turns_of_end (l := ⟨{ c with cpu }, s', false⟩) hlimit.toPassive hrun
      exact ⟨_, returns_iff.mpr ⟨_, _, hturns.append hmore, rfl⟩, rfl, cpu, hticks, rfl⟩
  | true =>
      obtain ⟨s'', hask⟩ := hlimit.stops hticks s'
      have hturn := Loop.turn_of_break (l := ⟨{ c with cpu }, s', false⟩) hrun rfl hask
      rw [Loop.interrupt_eq h _ rfl] at hturn
      rw [Reaction.turn_of_quit (hlimit.quits _ _ _), hlimit.computer] at hturn
      exact ⟨_, returns_iff.mpr ⟨_, _, hturns.snoc hturn, rfl⟩, rfl, cpu, hticks, rfl⟩

/-- A run that ends before the bound is not affected by it. -/
theorem returns_before_limit (hlimit : h.Limiting bound) (hlt : k < bound)
    (hticks : Ticks c.program c.jumps c.cpu.reset k cpu)
    (hends : Ends c.program c.jumps cpu result) :
    ∃ o, c.Returns h s o ∧ o.result = result ∧ o.After c k := by
  obtain ⟨es, s', hturns⟩ := Loop.turns_of_ticks hlimit.toPassive s hticks
    fun k' mid hlt' hmid => hlimit.passes (Nat.lt_trans hlt' hlt) hmid
  obtain ⟨es', o, hmore, hresult, hcomputer⟩ :=
    Loop.turns_of_ends hlimit.toPassive (hlimit.passes hlt hticks) s' hticks.halted_eq hends
  refine ⟨o.close, returns_iff.mpr ⟨_, _, hturns.append hmore, rfl⟩, hresult, cpu, hticks, ?_⟩
  rw [hcomputer]
  rfl

/--
**A watching hook is invisible, and a limit cuts off the beginning of a run.**  If `n` is the
length of the unattended run, a run under the limit `bound` always ends, and with the machine
as it is after `min bound n` ticks.  It fails only if the unattended run does so below the bound.
-/
theorem run_under_hooks (c : Computer) (h : Hook σ) (s : σ) :
    (h.Watching → ∀ c' : Computer, c.SameWork c' → ∀ result cpu,
      (∃ o, c.Returns h s o ∧ o.result = result ∧ o.computer.cpu = cpu) ↔
        ∃ fuel o, c'.run fuel = some o ∧ o.result = result ∧ o.computer.cpu = cpu) ∧
    ∀ bound : Nat, h.Limiting bound → ∃ (n : ℕ∞) (k : Nat) (o : Outcome σ),
      c.Lasts n ∧ (k : ℕ∞) = min (bound : ℕ∞) n ∧ c.Returns h s o ∧ o.After c k ∧
        ∀ e, o.result = .error e ↔
          (∃ fuel o', c.run fuel = some o' ∧ o'.result = .error e) ∧ n < bound := by
  constructor
  · intro hwatch c' hsame result cpu
    exact returns_iff_run hwatch.unobtrusive hsame
  · intro bound hlimit
    rcases Cpu.ticks_or_ends c.program c.jumps c.cpu.reset bound with
      ⟨cpu, hticks⟩ | ⟨k, cpu, result, hlt, hticks, hends⟩
    · obtain ⟨n, hlasts, hle⟩ := lasts_of_ticks hticks
      obtain ⟨o, hrun, hresult, hafter⟩ := returns_at_limit (s := s) hlimit hticks
      refine ⟨n, bound, o, hlasts, (min_eq_left hle).symm, hrun, hafter, ?_⟩
      intro e
      rw [hresult]
      constructor
      · intro he
        cases he
      · rintro ⟨-, hlt⟩
        exact absurd hle (not_le_of_gt hlt)
    · obtain ⟨o, hrun, rfl, hafter⟩ := returns_before_limit (s := s) hlimit hlt hticks hends
      have hltn : (k : ℕ∞) < bound := by exact_mod_cast hlt
      refine ⟨k, k, o, lasts_of_ends hticks hends, (min_eq_right hltn.le).symm, hrun, hafter, ?_⟩
      intro e
      constructor
      · intro he
        obtain ⟨fuel, hrun'⟩ := run_iff_ends (o := ⟨o.result, c.ended cpu o.result, ()⟩).mpr
          ⟨k, cpu, hticks, hends, rfl⟩
        exact ⟨⟨fuel, _, hrun', he⟩, hltn⟩
      · rintro ⟨⟨fuel, o', hrun', he⟩, -⟩
        obtain ⟨k', cpu', hticks', hends', -⟩ := run_iff_ends.mp ⟨fuel, hrun'⟩
        rw [← he]
        exact (hticks.ends_unique hends hticks' hends').2.2

end Computer

/-- Stops before every instruction and counts the stops. -/
def Hook.turnstile : Hook Nat where
  shouldStop _ s := (true, s)
  onStop _ c s := { answer := .ok .continue, computer := c, state := s + 1 }

/-- A program that fails in its third instruction, with the traces of an earlier run. -/
def Computer.untidy : Computer where
  cpu := {
    pc := some 8, inbox := [.letter 'A'], outbox := #[.letter 'Z'], steps := 5, halted := true }
  program := #[.moveFromInbox, .moveToOutbox, .moveToOutbox]

/-- A limit of two instructions ends the run right before it fails. -/
theorem Computer.untidy_under_hooks :
    (∃ o, untidy.Returns Hook.turnstile 0 o ∧ o.result = .error .accumulatorEmpty ∧
      o.computer.cpu = { outbox := #[.letter 'A'], steps := 2 }) ∧
    ∃ o, untidy.Returns (Hook.limit 2) () o ∧ o.After untidy 2 ∧ ∀ e, o.result ≠ .error e := by
  constructor
  · have hwatch : Hook.turnstile.Watching :=
      ⟨⟨fun _ _ _ => rfl, fun _ _ _ => ⟨_, rfl⟩⟩, fun _ _ => rfl⟩
    have hsame : untidy.SameWork (untidy.setHalted false) := ⟨rfl, rfl, rfl, rfl⟩
    refine ((run_under_hooks untidy Hook.turnstile 0).1 hwatch _ hsame _ _).mpr ⟨3, _, rfl, ?_, ?_⟩
    · rfl
    · rfl
  · obtain ⟨n, k, o, hlasts, hk, hrun, hafter, herror⟩ :=
      (run_under_hooks untidy (Hook.limit 2) ()).2 2 (Hook.limit_limiting 2)
    have hends : untidy.observe .unattended Event.count 0 3 () = some (2, _) := rfl
    have htwo : untidy.Lasts (2 : Nat) := .ends hends
    obtain rfl := hlasts.unique htwo
    rw [min_self, Nat.cast_inj] at hk
    subst hk
    refine ⟨o, hrun, hafter, ?_⟩
    intro e he
    exact lt_irrefl _ ((herror e).mp he).2

end Mailroom
