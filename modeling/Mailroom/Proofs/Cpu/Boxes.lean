/-
What instructions do to the boxes.

One instruction takes a value from the inbox and one sends a value to the outbox.  `Carried`
says where the values come from and where they go, for all instructions alike: what is
taken is the next value and ends up in the accumulator, and what is sent is the accumulator
and ends up behind all that was sent before.  Sending leaves the accumulator empty, and so a
value in the outbox has cost two instructions at least.
-/
import Mailroom.Proofs.Cpu.Tick

namespace Mailroom

namespace Cpu

variable {program : Program} {jumps : JumpTable} {start cpu next : Cpu} {i : Instruction}

/-- The value that the instruction took from the inbox, if it has led to this machine. -/
def received? (i : Instruction) (after : Cpu) : Option Value :=
  if i = .moveFromInbox then after.accumulator else none

/-- The value that the instruction sends to the outbox on this machine. -/
def sent? (i : Instruction) (before : Cpu) : Option Value :=
  if i = .moveToOutbox then before.accumulator else none

/-- The instructions that are needed to fill the outbox and the accumulator like this. -/
def effort (cpu : Cpu) : Nat :=
  2 * cpu.outbox.size + if cpu.accumulator.isSome then 1 else 0

/-- What an instruction does to the boxes. -/
structure Carried (i : Instruction) (before after : Cpu) : Prop where
  /-- What is taken comes first in the inbox. -/
  inbox : before.inbox = (received? i after).toList ++ after.inbox
  /-- What is sent comes last in the outbox. -/
  outbox : after.outbox.toList = before.outbox.toList ++ (sent? i before).toList
  effort : after.effort ≤ before.effort + 1

/-- Other instructions than the two leave the boxes alone. -/
theorem carried_of_kept {after : Cpu} (hin : i ≠ .moveFromInbox) (hout : i ≠ .moveToOutbox)
    (hinbox : after.inbox = cpu.inbox) (houtbox : after.outbox = cpu.outbox) :
    Carried i cpu after := by
  refine ⟨by simp [received?, hin, hinbox], by simp [sent?, hout, houtbox], ?_⟩
  simp only [Cpu.effort, houtbox]
  split <;> omega

theorem carried_of_effect {pc size s : Nat} {after : Cpu}
    (h : cpu.effect i pc size jumps = .ok (s, after)) : Carried i cpu after := by
  cases effect_eq_ok.mp h with
  | moveFromInbox hinbox =>
      refine ⟨hinbox, by simp [sent?], ?_⟩
      simp [Cpu.effort]
  | moveToOutbox hacc =>
      refine ⟨by simp [received?], by simp [sent?, hacc], ?_⟩
      simp only [Cpu.effort, hacc, Array.size_push, Option.isSome, if_true, Bool.false_eq_true,
        if_false]
      omega
  | _ => exact carried_of_kept (by simp) (by simp) rfl rfl

/-- A tick carries what its instruction carries. -/
theorem carried_of_tick (h : tick program jumps cpu = .ok () next) :
    ∃ pc i, cpu.next? program = some (pc, i) ∧ Carried i cpu next := by
  obtain ⟨pc, i, s, worked, hnext, heffect, rfl⟩ := advance_eq_ok.mp (tick_eq_ok.mp h)
  have hcarried := carried_of_effect heffect
  exact ⟨pc, i, hnext, hcarried.inbox, hcarried.outbox, hcarried.effort⟩

/-- What has been sent stays sent. -/
theorem Ticks.outbox_isPrefix {n m : Nat} {later : Cpu} (h : Ticks program jumps start n cpu)
    (hlater : Ticks program jumps start m later) (hle : n ≤ m) :
    cpu.outbox.toList <+: later.outbox.toList := by
  induction hlater with
  | zero =>
      obtain rfl : n = 0 := by omega
      obtain rfl := h.unique .zero
      exact List.prefix_rfl
  | @succ m mid later before htick ih =>
      rcases Nat.lt_or_ge m n with hlt | hge
      · obtain rfl : n = m + 1 := by omega
        obtain rfl := h.unique (before.succ htick)
        exact List.prefix_rfl
      · obtain ⟨pc, i, -, hcarried⟩ := carried_of_tick htick
        refine (ih hge).trans ?_
        rw [hcarried.outbox]
        exact List.prefix_append _ _

end Cpu

end Mailroom
