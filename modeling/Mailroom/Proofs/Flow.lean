/-
Programs that keep taking values from the inbox come to an end.

The inbox only ever gets shorter, so a program that runs for ever takes nothing from it
from some point on.  If every cycle of the control flow takes a value, it cannot do that
for long: until the next value is taken no step comes up twice, and then the program
has no more steps to offer.

The argument needs the steps since the last value was taken, the `Trail` of the machine.
Each of them is an instruction of its own, so the trail is no longer than the program
(`length_le_size`); and what the trail is not, the inbox has paid for, a program's length
for each value.  Put together this bounds the number of ticks (`le_of_consuming`), in runs
that end and in runs that do not, and so there are none that do not.
-/
import Mathlib.Data.List.Cycle
import Mailroom.Proofs.Computer.Course

namespace Mailroom

open Cpu (Ticks)

namespace Program

/-- An edge of the control flow: step `t` can come right after step `s`. -/
def Flow (program : Program) (jumps : JumpTable) (s t : Nat) : Prop :=
  ∃ i, program[s]? = some i ∧ i.Leads s program.size jumps t

/--
Every cycle of the control flow takes a value from the inbox.  Cycles that come through a step
more than once are made of shorter ones, so nothing is asked of them.
-/
def Consuming (program : Program) (jumps : JumpTable) : Prop :=
  ∀ cycle : Cycle Nat, cycle ≠ .nil → cycle.Nodup → cycle.Chain (Flow program jumps) →
    ∃ s ∈ cycle, program[s]? = some .moveFromInbox

variable {program : Program} {jumps : JumpTable}

/-- Different steps of a program are no more than it has instructions. -/
theorem length_le_size {steps : List Nat} (hnodup : steps.Nodup)
    (hin : ∀ s ∈ steps, s < program.size) : steps.length ≤ program.size := by
  have hsub : steps ⊆ List.range program.size := by
    intro s hs
    exact List.mem_range.mpr (hin s hs)
  have hle := (hnodup.subperm hsub).length_le
  rwa [List.length_range] at hle

/-- It is enough that the control flow only goes back from or to a step that takes a value. -/
theorem consuming_of_lt (hforward : ∀ s t, program.Flow jumps s t →
      program[s]? ≠ some .moveFromInbox → program[t]? ≠ some .moveFromInbox → s < t) :
    program.Consuming jumps := by
  intro cycle hne _ hchain
  by_contra hnone
  have htakes : ∀ s ∈ cycle, program[s]? ≠ some .moveFromInbox := by
    intro s hs htaken
    exact hnone ⟨s, hs, htaken⟩
  have hlt : cycle.Chain (· < ·) := by
    induction cycle with
    | nil => exact absurd rfl hne
    | cons s rest =>
        rw [Cycle.chain_coe_cons] at hchain ⊢
        refine hchain.imp_of_mem_imp ?_
        intro t u ht hu hflow
        have hmem : ∀ v ∈ s :: (rest ++ [s]), v ∈ (s :: rest : Cycle Nat) := by
          intro v hv
          simp only [List.mem_cons, List.mem_append, List.not_mem_nil, or_false] at hv
          rw [Cycle.mem_coe_iff, List.mem_cons]
          tauto
        exact hforward t u hflow (htakes t (hmem t ht)) (htakes u (hmem u hu))
  exact hne hlt.eq_nil_of_irrefl

/-- Without taking a value, the control flow does not come back to a step. -/
theorem Consuming.not_mem_of_isChain (hconsuming : program.Consuming jumps) {steps : List Nat}
    {pc : Nat} (hchain : (steps ++ [pc]).IsChain (program.Flow jumps)) (hnodup : steps.Nodup)
    (htakes : ∀ s ∈ steps, program[s]? ≠ some .moveFromInbox) : pc ∉ steps := by
  intro hmem
  obtain ⟨before, loop, rfl⟩ := List.append_of_mem hmem
  -- the steps since `pc` came up are a cycle, and none of them takes a value
  have hcycle : Cycle.Chain (program.Flow jumps) (pc :: loop : List Nat) := by
    rw [Cycle.chain_coe_cons]
    rw [List.append_assoc] at hchain
    exact hchain.right_of_append
  have honce : (pc :: loop).Nodup := hnodup.of_append_right
  obtain ⟨s, hs, htaken⟩ := hconsuming (pc :: loop : List Nat) (by simp) honce hcycle
  exact htakes s (List.mem_append_right before hs) htaken

end Program

namespace Cpu

variable {program : Program} {jumps : JumpTable} {start cpu next : Cpu} {n : Nat}

/--
The steps that the machine has gone through since it last took a value from the inbox, after
`n` ticks that began with `stock` values.
-/
structure Trail (program : Program) (jumps : JumpTable) (stock n : Nat) (cpu : Cpu)
    (trail : List Nat) : Prop where
  /-- The trail leads to the current step. -/
  flow : ∃ pc, cpu.pc = some pc ∧ (trail ++ [pc]).IsChain (program.Flow jumps)
  /-- It goes through no step twice. -/
  nodup : trail.Nodup
  inside : ∀ s ∈ trail, s < program.size
  takesNone : ∀ s ∈ trail, program[s]? ≠ some .moveFromInbox
  /-- All ticks before it are paid for by the values that were taken. -/
  paid : n + cpu.inbox.length * program.size ≤ stock * program.size + trail.length

theorem Trail.length_le {stock : Nat} {trail : List Nat}
    (h : Trail program jumps stock n cpu trail) : trail.length ≤ program.size :=
  Program.length_le_size h.nodup h.inside

/-- Taking a value makes the inbox shorter by one. -/
theorem inbox_of_moveFromInbox {pc size s : Nat} {worked : Cpu}
    (h : cpu.effect .moveFromInbox pc size jumps = .ok (s, worked)) :
    cpu.inbox.length = worked.inbox.length + 1 := by
  cases effect_eq_ok.mp h with
  | moveFromInbox hinbox => rw [hinbox, List.length_cons]

section

variable {stock pc s : Nat} {trail : List Nat}

/-- When a value is taken it pays for the trail and for this tick, and the trail begins anew. -/
theorem Trail.restart (h : Trail program jumps stock n cpu trail)
    (hpc : program[pc]? = some .moveFromInbox)
    (hinbox : cpu.inbox.length = next.inbox.length + 1) (hs : next.pc = some s) :
    Trail program jumps stock (n + 1) next [] := by
  have hlength : (pc :: trail).length ≤ program.size := by
    have hfresh : pc ∉ trail := fun hmem => h.takesNone pc hmem hpc
    refine Program.length_le_size (List.nodup_cons.mpr ⟨hfresh, h.nodup⟩) ?_
    intro t ht
    rcases List.mem_cons.mp ht with rfl | ht
    · exact (Array.getElem?_eq_some_iff.mp hpc).1
    · exact h.inside t ht
  refine ⟨⟨s, hs, List.isChain_singleton s⟩, List.nodup_nil, by simp, by simp, ?_⟩
  have hpaid := h.paid
  rw [hinbox, Nat.add_mul] at hpaid
  simp only [List.length_cons, List.length_nil] at hlength ⊢
  omega

/-- Any other instruction makes the trail longer. -/
theorem Trail.snoc (hconsuming : program.Consuming jumps)
    (h : Trail program jumps stock n cpu trail) (hpc : cpu.pc = some pc) (hlt : pc < program.size)
    (htakes : program[pc]? ≠ some .moveFromInbox) (hflow : program.Flow jumps pc s)
    (hinbox : next.inbox <:+ cpu.inbox) (hs : next.pc = some s) :
    Trail program jumps stock (n + 1) next (trail ++ [pc]) := by
  obtain ⟨pc', hpc', hchain⟩ := h.flow
  obtain rfl : pc = pc' := Option.some.inj (hpc.symm.trans hpc')
  have hfresh : pc ∉ trail := hconsuming.not_mem_of_isChain hchain h.nodup h.takesNone
  have hmem : ∀ t, t ∈ trail ++ [pc] ↔ t ∈ trail ∨ t = pc := by simp
  refine ⟨⟨s, hs, ?_⟩, ?_, ?_, ?_, ?_⟩
  · exact hchain.append_overlap (List.isChain_pair.mpr hflow) (List.cons_ne_nil pc [])
  · rw [← List.concat_eq_append]
    exact h.nodup.concat hfresh
  · intro t ht
    rcases (hmem t).mp ht with ht | rfl
    · exact h.inside t ht
    · exact hlt
  · intro t ht
    rcases (hmem t).mp ht with ht | rfl
    · exact h.takesNone t ht
    · exact htakes
  · have hpaid := h.paid
    have hle : next.inbox.length * program.size ≤ cpu.inbox.length * program.size :=
      Nat.mul_le_mul_right _ hinbox.length_le
    rw [List.length_append, List.length_singleton]
    omega

theorem trail_of_tick (hconsuming : program.Consuming jumps)
    (h : Trail program jumps stock n cpu trail) (htick : tick program jumps cpu = .ok () next) :
    ∃ trail', Trail program jumps stock (n + 1) next trail' := by
  obtain ⟨pc, i, s, worked, hnext, heffect, rfl⟩ := advance_eq_ok.mp (tick_eq_ok.mp htick)
  obtain ⟨-, hpc, hi⟩ := next?_eq_some.mp hnext
  by_cases htake : i = .moveFromInbox
  · subst htake
    have hinbox := inbox_of_moveFromInbox heffect
    exact ⟨[], h.restart hi hinbox rfl⟩
  · have hlt : pc < program.size := (Array.getElem?_eq_some_iff.mp hi).1
    have htakes : program[pc]? ≠ some .moveFromInbox := by
      rw [hi]
      exact fun heq => htake (Option.some.inj heq)
    exact ⟨trail ++ [pc], h.snoc hconsuming hpc hlt htakes ⟨i, hi, leads_of_effect heffect⟩
      (effect_keeps heffect).inbox rfl⟩

end

theorem trail_of_ticks {base : Cpu} (hconsuming : program.Consuming jumps)
    (h : Ticks program jumps base.reset n cpu) :
    ∃ trail, Trail program jumps base.inbox.length n cpu trail := by
  induction h with
  | zero =>
      refine ⟨[], ⟨0, rfl, List.isChain_singleton 0⟩, List.nodup_nil, by simp, by simp, ?_⟩
      show 0 + base.inbox.length * program.size ≤ _
      omega
  | succ _ htick ih =>
      obtain ⟨trail, htrail⟩ := ih
      exact trail_of_tick hconsuming htrail htick

/-- **Each value of the inbox is good for as many ticks as the program has steps.** -/
theorem Ticks.le_of_consuming {base : Cpu} (hconsuming : program.Consuming jumps)
    (h : Ticks program jumps base.reset n cpu) :
    n ≤ (base.inbox.length + 1) * program.size := by
  obtain ⟨trail, htrail⟩ := trail_of_ticks hconsuming h
  have hpaid := htrail.paid
  have hlength := htrail.length_le
  rw [Nat.add_mul]
  omega

end Cpu

namespace Computer

/--
**A program that takes a value in every cycle ends**, and within as many ticks as it has steps
for each value of the inbox, and once more.
-/
theorem run_of_consuming (c : Computer) (hconsuming : c.program.Consuming c.jumps) :
    (∃ fuel o, c.run fuel = some o) ∧ ∀ fuel o, c.run fuel = some o →
      o.computer.cpu.steps ≤ (c.cpu.inbox.length + 1) * c.program.size := by
  constructor
  · rcases Cpu.ticks_or_ends c.program c.jumps c.cpu.reset
      ((c.cpu.inbox.length + 1) * c.program.size + 1) with
      ⟨cpu, hticks⟩ | ⟨k, cpu, result, -, hticks, hends⟩
    · have hle := hticks.le_of_consuming hconsuming
      omega
    · obtain ⟨fuel, hrun⟩ := run_iff_ends (o := ⟨result, c.ended cpu result, ()⟩).mpr
        ⟨k, cpu, hticks, hends, rfl⟩
      exact ⟨fuel, _, hrun⟩
  · intro fuel o hrun
    obtain ⟨n, cpu, hticks, -, hcomputer⟩ := run_iff_ends.mp ⟨fuel, hrun⟩
    rw [hcomputer]
    show cpu.steps ≤ _
    rw [hticks.steps_of_reset]
    exact hticks.le_of_consuming hconsuming

/-- Sends everything from the inbox to the outbox. -/
def ferry : Computer where
  cpu := { inbox := [.letter 'A', .letter 'B'] }
  program := #[.moveFromInbox, .moveToOutbox, .jump .always (.label "again")]
  jumps := ⟨[("again", 0)]⟩

theorem ferry_run : ferry.program.Consuming ferry.jumps ∧
    ∃ fuel o, ferry.run fuel = some o ∧ o.computer.cpu.steps ≤ 9 := by
  have hconsuming : ferry.program.Consuming ferry.jumps := by
    refine Program.consuming_of_lt ?_
    rintro s t ⟨i, hi, hleads⟩ hs ht
    match s with
    | 0 => exact absurd rfl hs
    | 1 =>
        cases hi
        cases hleads with
        | next => decide
        | landing hi => cases hi
    | 2 =>
        cases hi
        cases hleads with
        | next hnot => exact absurd rfl (hnot _)
        | landing hi hland =>
            cases hi
            cases hland
            exact absurd rfl ht
    | s + 3 => cases hi
  obtain ⟨⟨fuel, o, hrun⟩, hbound⟩ := run_of_consuming ferry hconsuming
  exact ⟨hconsuming, fuel, o, hrun, hbound fuel o hrun⟩

end Computer

end Mailroom
