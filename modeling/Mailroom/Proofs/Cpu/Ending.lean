/-
Where a row of ticks ends.

Ticks follow one another until the machine has left the program, finds its inbox empty or
fails in another way.  `Ends` says that one of these is the case, and what a run makes of
it.  There are then either as many ticks as one likes or the row ends somewhere
(`ticks_or_ends`), and where it ends is determined (`Ticks.ends_unique`).
-/
import Mailroom.Proofs.Cpu.Tick

namespace Mailroom

namespace Cpu

/-- `Ends program jumps cpu result`: no tick is left for `cpu`, and a run has this result. -/
inductive Ends (program : Program) (jumps : JumpTable) (cpu : Cpu) : Except Error Unit → Prop
  /-- The machine has left the program. -/
  | left (hout : ¬ Inside program cpu) : Ends program jumps cpu (.ok ())
  /-- The inbox has run dry, which is no failure. -/
  | dry (htick : tick program jumps cpu = .error .inboxEmpty cpu) :
      Ends program jumps cpu (.ok ())
  | failed {e : Error} (hin : Inside program cpu) (htick : tick program jumps cpu = .error e cpu)
      (he : e ≠ .inboxEmpty) : Ends program jumps cpu (.error e)

variable {program : Program} {jumps : JumpTable} {start cpu next : Cpu}

/-- Only a machine with a next instruction can tick. -/
theorem next?_of_tick (htick : tick program jumps cpu = .ok () next) :
    (cpu.next? program).isSome = true := by
  obtain ⟨pc, i, s, hnext, -, -⟩ := (ticked_of_advance (tick_eq_ok.mp htick)).moved
  rw [hnext]
  rfl

/-- An inbox can only be found empty by a machine with a next instruction. -/
theorem next?_of_dry (htick : tick program jumps cpu = .error .inboxEmpty next) :
    (cpu.next? program).isSome = true := by
  have hadvance := (tick_eq_error.mp htick).1
  unfold advance at hadvance
  cases hnext : cpu.next? program with
  | none => rw [hnext] at hadvance; cases hadvance
  | some _ => rfl

theorem Ends.not_tick {result : Except Error Unit} (h : Ends program jumps cpu result) :
    tick program jumps cpu ≠ .ok () next := by
  intro htick
  cases h with
  | left hout => exact hout (next?_isSome.mp (next?_of_tick htick)).2
  | dry hdry => rw [hdry] at htick; cases htick
  | failed hin hfail he => rw [hfail] at htick; cases htick

theorem Ends.unique {result result' : Except Error Unit} (h : Ends program jumps cpu result)
    (h' : Ends program jumps cpu result') : result = result' := by
  cases h with
  | left hout =>
      cases h' with
      | left | dry => rfl
      | failed hin => exact absurd hin hout
  | dry hdry =>
      cases h' with
      | left | dry => rfl
      | failed hin hfail he =>
          rw [hdry] at hfail
          cases hfail
          exact absurd rfl he
  | failed hin hfail he =>
      cases h' with
      | left hout => exact absurd hin hout
      | dry hdry =>
          rw [hfail] at hdry
          cases hdry
          exact absurd rfl he
      | failed hin' hfail' he' =>
          rw [hfail] at hfail'
          cases hfail'
          rfl

/-- A machine ticks or its row of ticks ends. -/
theorem tick_or_ends (program : Program) (jumps : JumpTable) (cpu : Cpu) :
    (∃ next, tick program jumps cpu = .ok () next) ∨ ∃ result, Ends program jumps cpu result := by
  by_cases hin : Inside program cpu
  · cases htick : tick program jumps cpu with
    | ok _ next => exact Or.inl ⟨next, rfl⟩
    | error e after =>
        obtain ⟨-, rfl⟩ := tick_eq_error.mp htick
        by_cases he : e = .inboxEmpty
        · subst he
          exact Or.inr ⟨_, .dry htick⟩
        · exact Or.inr ⟨_, .failed hin htick he⟩
  · exact Or.inr ⟨_, .left hin⟩

/-! ### Rows of ticks -/

theorem ticks_or_ends (program : Program) (jumps : JumpTable) (start : Cpu) (n : Nat) :
    (∃ cpu, Ticks program jumps start n cpu) ∨
      ∃ k cpu result, k < n ∧ Ticks program jumps start k cpu ∧ Ends program jumps cpu result := by
  induction n with
  | zero => exact Or.inl ⟨start, .zero⟩
  | succ n ih =>
      rcases ih with ⟨cpu, hticks⟩ | ⟨k, cpu, result, hlt, hticks, hends⟩
      · rcases tick_or_ends program jumps cpu with ⟨next, htick⟩ | ⟨result, hends⟩
        · exact Or.inl ⟨next, hticks.succ htick⟩
        · exact Or.inr ⟨n, cpu, result, Nat.lt_succ_self n, hticks, hends⟩
      · exact Or.inr ⟨k, cpu, result, Nat.lt_succ_of_lt hlt, hticks, hends⟩

namespace Ticks

variable {n m : Nat}

/-- From the reset state on the machine counts its ticks. -/
theorem steps_of_reset {base : Cpu} (h : Ticks program jumps base.reset n cpu) :
    cpu.steps = n := by
  rw [h.steps_eq]
  exact Nat.zero_add n

/-- A row of ticks passes through all shorter ones. -/
theorem passes (h : Ticks program jumps start n cpu) (hlt : m < n) :
    ∃ mid next, Ticks program jumps start m mid ∧ tick program jumps mid = .ok () next := by
  induction h with
  | zero => omega
  | @succ n cpu next before htick ih =>
      by_cases hm : m = n
      · subst hm
        exact ⟨cpu, next, before, htick⟩
      · exact ih (by omega)

/-- No row of ticks is longer than one that ends. -/
theorem le_of_ends {other : Cpu} {result : Except Error Unit}
    (h : Ticks program jumps start n cpu) (hends : Ends program jumps cpu result)
    (hother : Ticks program jumps start m other) : m ≤ n := by
  rw [← Nat.not_lt]
  intro hlt
  obtain ⟨mid, next, hmid, htick⟩ := hother.passes hlt
  rw [hmid.unique h] at htick
  exact hends.not_tick htick

/-- **Where a row of ticks ends is determined.** -/
theorem ends_unique {other : Cpu} {result result' : Except Error Unit}
    (h : Ticks program jumps start n cpu) (hends : Ends program jumps cpu result)
    (h' : Ticks program jumps start m other) (hends' : Ends program jumps other result') :
    n = m ∧ cpu = other ∧ result = result' := by
  obtain rfl := Nat.le_antisymm (h'.le_of_ends hends' h) (h.le_of_ends hends h')
  obtain rfl := h.unique h'
  exact ⟨rfl, rfl, hends.unique hends'⟩

end Ticks

end Cpu

end Mailroom
