/-
Values that have not been taken yet have no effect.

A program takes the values of its inbox one by one and cannot see how many are left.  So the
machine does the same with more values behind those that it has, and the only instruction
for which they make a difference is the one that would have found the inbox empty
(`Cpu.effect_supplied`).

A run that fails or leaves the program has not come to that point, and it ends in the same
way with more values, which are all left over.  A run that comes to that point is the
beginning of the run with more values.
-/
import Mailroom.Proofs.Computer.Course
import Mailroom.Proofs.Cpu.Aside
import Mailroom.Proofs.Cpu.Boxes
import Mailroom.Proofs.Cpu.Failure

namespace Mailroom

open Cpu (Ticks Ends)

/-! ### More values -/

/-- The machine with more values behind those of its inbox. -/
def Cpu.supplied (more : List Value) (cpu : Cpu) : Cpu :=
  { cpu with inbox := cpu.inbox ++ more }

/-- The computer with more values behind those of its inbox. -/
def Computer.supplied (more : List Value) (c : Computer) : Computer :=
  { c with cpu := c.cpu.supplied more }

/-- The outcome with more values left over. -/
def Outcome.supplied (more : List Value) (o : Outcome Unit) : Outcome Unit :=
  { o with computer := o.computer.supplied more }

namespace Cpu

variable {program : Program} {jumps : JumpTable} {start cpu next : Cpu} {more : List Value}

theorem supplied_aside (more : List Value) : Aside (supplied more) where
  accumulator _ := rfl
  memory _ := rfl
  holding _ _ := rfl
  exchanging _ _ := rfl

/-- **An instruction that does not find the inbox empty does the same with more values.** -/
theorem effect_supplied {i : Instruction} {pc size : Nat}
    (hfound : cpu.effect i pc size jumps ≠ .error .inboxEmpty) :
    (cpu.supplied more).effect i pc size jumps
      = Prod.map id (supplied more) <$> cpu.effect i pc size jumps := by
  by_cases hin : i = .moveFromInbox
  · subst hin
    simp only [effect, supplied] at hfound ⊢
    cases hinbox : cpu.inbox with
    | nil => simp [hinbox] at hfound
    | cons v rest => rfl
  refine (supplied_aside more).effect_eq hin (fun _ => rfl) rfl ?_
  intro d _
  exact (id_map _).symm

theorem advance_supplied (hfound : cpu.advance program jumps ≠ .error .inboxEmpty) :
    (cpu.supplied more).advance program jumps
      = supplied more <$> cpu.advance program jumps := by
  have hsame : (cpu.supplied more).next? program = cpu.next? program := rfl
  unfold advance at hfound ⊢
  rw [hsame]
  cases hnext : cpu.next? program with
  | none => rfl
  | some step =>
      obtain ⟨pc, i⟩ := step
      have heffect : cpu.effect i pc program.size jumps ≠ .error .inboxEmpty := by
        intro hdry
        simp only [hnext, hdry] at hfound
        exact hfound rfl
      simp only [effect_supplied heffect]
      cases cpu.effect i pc program.size jumps <;> rfl

theorem tick_supplied (h : tick program jumps cpu = .ok () next) :
    tick program jumps (cpu.supplied more) = .ok () (next.supplied more) := by
  rw [tick_eq_ok] at h ⊢
  rw [advance_supplied (by simp [h]), h]
  rfl

theorem tick_supplied_error {e : Error} (h : tick program jumps cpu = .error e cpu)
    (he : e ≠ .inboxEmpty) :
    tick program jumps (cpu.supplied more) = .error e (cpu.supplied more) := by
  have hadvance := (tick_eq_error.mp h).1
  refine tick_eq_error.mpr ⟨?_, rfl⟩
  rw [advance_supplied (by simp [hadvance, he]), hadvance]
  rfl

theorem Ticks.supplied {n : Nat} (h : Ticks program jumps start n cpu) (more : List Value) :
    Ticks program jumps (start.supplied more) n (cpu.supplied more) := by
  induction h with
  | zero => exact .zero
  | succ _ htick ih => exact .succ ih (tick_supplied htick)

/-- A machine that finds its inbox empty has nothing in it. -/
theorem inbox_of_dry (h : tick program jumps cpu = .error .inboxEmpty cpu) : cpu.inbox = [] := by
  rcases advance_eq_error.mp (tick_eq_error.mp h).1 with ⟨-, h⟩ | ⟨pc, i, -, heffect⟩
  · cases h
  · rcases effect_error heffect with h | ⟨-, hinbox, -⟩ | ⟨condition, d, -, -, h⟩
    · cases h
    · exact hinbox
    · cases h

/-- A row of ticks that ends otherwise than over an empty inbox ends there with more values too. -/
theorem Ends.supplied {result : Except Error Unit} (h : Ends program jumps cpu result)
    (hfound : tick program jumps cpu ≠ .error .inboxEmpty cpu) (more : List Value) :
    Ends program jumps (cpu.supplied more) result := by
  cases h with
  | left hout => exact .left hout
  | dry htick => exact absurd htick hfound
  | failed hin htick he => exact .failed hin (tick_supplied_error htick he) he

end Cpu

namespace Computer

variable {c : Computer} {n m : Nat} {cpu left later : Cpu} {more : List Value} {o : Outcome Unit}
  {fuel : Nat}

/-! ### Ways to come to an end -/

/-- The run of `c` leaves the program after `n` ticks. -/
def Leaves (c : Computer) (n : Nat) (cpu : Cpu) : Prop :=
  Ticks c.program c.jumps c.cpu.reset n cpu ∧ ¬ Cpu.Inside c.program cpu

/-- The run of `c` finds the inbox empty after `n` ticks. -/
def RunsDry (c : Computer) (n : Nat) (cpu : Cpu) : Prop :=
  Ticks c.program c.jumps c.cpu.reset n cpu ∧
    Cpu.tick c.program c.jumps cpu = .error .inboxEmpty cpu

theorem RunsDry.run (hdry : c.RunsDry n cpu) :
    ∃ fuel, c.run fuel = some ⟨.ok (), c.ended cpu (.ok ()), ()⟩ :=
  run_iff_ends.mpr ⟨n, cpu, hdry.1, .dry hdry.2, rfl⟩

/-- A run ends in one of the ways only. -/
theorem RunsDry.not_leaves (hdry : c.RunsDry n cpu) : ¬ c.Leaves m left := by
  rintro ⟨hticks, hout⟩
  obtain ⟨-, rfl, -⟩ := hdry.1.ends_unique (.dry hdry.2) hticks (.left hout)
  exact hout (Cpu.next?_isSome.mp (Cpu.next?_of_dry hdry.2)).2

/-! ### Runs with more values -/

/-- A run that fails or leaves the program ends in the same way with more values. -/
theorem run_supplied (hrun : c.run fuel = some o)
    (hend : (∃ e, o.result = .error e) ∨ ∃ n cpu, c.Leaves n cpu) :
    ∃ fuel', (c.supplied more).run fuel' = some (o.supplied more) := by
  obtain ⟨n, cpu, hticks, hends, hcomputer⟩ := run_iff_ends.mp ⟨fuel, hrun⟩
  have hfound : Cpu.tick c.program c.jumps cpu ≠ .error .inboxEmpty cpu := by
    intro htick
    rcases hend with ⟨e, he⟩ | ⟨m, left, hleaves⟩
    · rw [he] at hends
      cases hends.unique (.dry htick)
    · exact RunsDry.not_leaves ⟨hticks, htick⟩ hleaves
  refine run_iff_ends.mpr
    ⟨n, cpu.supplied more, hticks.supplied more, hends.supplied hfound more, ?_⟩
  show o.computer.supplied more = _
  rw [hcomputer]
  rfl

/-- A run that finds the inbox empty is the beginning of the run with more values. -/
theorem RunsDry.ticks_supplied (hdry : c.RunsDry n cpu) (more : List Value) :
    Ticks c.program c.jumps (c.supplied more).cpu.reset n { cpu with inbox := more } := by
  have hinbox : cpu.supplied more = { cpu with inbox := more } := by
    rw [Cpu.supplied, Cpu.inbox_of_dry hdry.2]
    rfl
  rw [← hinbox]
  exact hdry.1.supplied more

/--
**A run depends on no more values than it takes.**  If it fails or leaves the program, it ends
in the same way with more values in the inbox, and they are left over.  If it finds the inbox
empty, the run with more values is at that point in the same state with these values before it,
and what has been sent and counted by then remains.
-/
theorem run_is_causal (c : Computer) (more : List Value) :
    (∀ fuel o, c.run fuel = some o → ((∃ e, o.result = .error e) ∨ ∃ n cpu, c.Leaves n cpu) →
      ∃ fuel', (c.supplied more).run fuel' = some (o.supplied more)) ∧
    ∀ n cpu, c.RunsDry n cpu →
      (∃ fuel, c.run fuel = some ⟨.ok (), c.ended cpu (.ok ()), ()⟩) ∧
      Ticks c.program c.jumps (c.supplied more).cpu.reset n { cpu with inbox := more } ∧
      (∀ m later, n ≤ m → Ticks c.program c.jumps (c.supplied more).cpu.reset m later →
        cpu.outbox.toList <+: later.outbox.toList ∧ n ≤ later.steps) ∧
      ∀ fuel o, (c.supplied more).run fuel = some o →
        cpu.outbox.toList <+: o.computer.cpu.outbox.toList ∧ n ≤ o.computer.cpu.steps := by
  constructor
  · intro fuel o hrun hend
    exact run_supplied hrun hend
  · intro n cpu hdry
    have hticks := hdry.ticks_supplied more
    have hlater : ∀ m later, n ≤ m → Ticks c.program c.jumps (c.supplied more).cpu.reset m later →
        cpu.outbox.toList <+: later.outbox.toList ∧ n ≤ later.steps := by
      intro m later hle hmore
      rw [hmore.steps_of_reset]
      exact ⟨hticks.outbox_isPrefix hmore hle, hle⟩
    refine ⟨hdry.run, hticks, hlater, ?_⟩
    intro fuel o hrun
    obtain ⟨m, later, hmore, hends, hcomputer⟩ := run_iff_ends.mp ⟨fuel, hrun⟩
    rw [hcomputer]
    exact hlater m later (hmore.le_of_ends hends hticks) hmore

/-- Sends everything on, and fails over a zero. -/
def sieve (inbox : List Value) : Computer where
  cpu := { inbox }
  program := #[.moveFromInbox, .jump .ifZero (.label "gone"), .moveToOutbox, .jump .always (.step 0)]

theorem sieve_is_causal :
    (∃ fuel o, (sieve [.int 4, .int 0, .letter 'A']).run fuel = some o ∧
      o.result = .error (.noSuchJumpDestination (.label "gone")) ∧
      o.computer.cpu.inbox = [.letter 'A'] ∧ o.computer.cpu.outbox = #[.int 4]) ∧
    ∃ cpu, Ticks (sieve []).program {} (sieve [.int 4, .letter 'A']).cpu.reset 4 cpu ∧
      cpu.inbox = [.letter 'A'] := by
  constructor
  · obtain ⟨fuel, hrun⟩ :=
      (run_is_causal (sieve [.int 4, .int 0]) [.letter 'A']).1 6 _ rfl (.inl ⟨_, rfl⟩)
    exact ⟨fuel, _, hrun, rfl, rfl, rfl⟩
  · have hdry : (sieve [.int 4]).RunsDry 4 _ :=
      ⟨((((.zero : Ticks _ _ _ 0 _).succ rfl).succ rfl).succ rfl).succ rfl, rfl⟩
    obtain ⟨-, hticks, -⟩ := (run_is_causal (sieve [.int 4]) [.letter 'A']).2 4 _ hdry
    exact ⟨_, hticks, rfl⟩

end Computer

end Mailroom
