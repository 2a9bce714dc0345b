/-
The books of a run.

Nothing gets lost between the inbox and the outbox.  The values that instructions have taken
and the values that are still there make up the inbox of the beginning, and the outbox is
what instructions have sent, one value after the other.  A run also counts its instructions,
stays in its program or right behind it, and has executed at least two instructions for each
value in the outbox.

`Books` says this of a computer and the events that have led to it.  One instruction keeps
the books (`Books.tick`), nothing else that happens changes them (`Books.idle`), and so they
are in order between any two turns of an unattended run.
-/
import Mailroom.Proofs.Computer.Watched
import Mailroom.Proofs.Cpu.Boxes

namespace Mailroom

open Cpu (Ticks)

/-! ### What events carry -/

namespace Event

/-- The value that a completed instruction took from the inbox. -/
def received? : Event → Option Value
  | ticked before after (.ok _) => before.currentInstruction?.bind (Cpu.received? · after.cpu)
  | _ => none

/-- The value that a completed instruction sent to the outbox. -/
def sent? : Event → Option Value
  | ticked before _ (.ok _) => before.currentInstruction?.bind (Cpu.sent? · before.cpu)
  | _ => none

end Event

namespace Computer

variable {c d : Computer} {es es' : List Event} {e : Event} {next : Cpu} {l l' : Loop Unit}

theorem currentInstruction?_of_next? {pc : Nat} {i : Instruction}
    (h : d.cpu.next? d.program = some (pc, i)) : d.currentInstruction? = some i := by
  obtain ⟨-, hpc, hi⟩ := Cpu.next?_eq_some.mp h
  simp only [currentInstruction?, hpc, Option.bind_eq_bind, Option.bind_some, hi]

/-- What is true of a computer `d` that a run of `c` has come to by way of the events `es`. -/
structure Books (c : Computer) (es : List Event) (d : Computer) : Prop where
  /-- Every completed instruction is counted. -/
  steps : d.cpu.steps = es.foldl Event.count 0
  /-- What was taken from the inbox, in order, and what is still there. -/
  inbox : c.cpu.inbox = es.filterMap Event.received? ++ d.cpu.inbox
  /-- What was sent to the outbox, in order. -/
  outbox : d.cpu.outbox.toList = es.filterMap Event.sent?
  /-- Two instructions for each value that was sent, and one for the one in the accumulator. -/
  effort : 2 * d.cpu.outbox.size + (if d.cpu.accumulator.isSome then 1 else 0) ≤ d.cpu.steps
  /-- The current step is in the program or right behind it. -/
  pc : ∃ pc, d.cpu.pc = some pc ∧ pc ≤ d.program.size
  program : d.program = c.program
  jumps : d.jumps = c.jumps

namespace Books

theorem start (c : Computer) : Books c [] (Loop.start c ()).computer where
  steps := rfl
  inbox := rfl
  outbox := rfl
  effort := Nat.le_refl 0
  pc := ⟨0, rfl, Nat.zero_le _⟩
  program := rfl
  jumps := rfl

/-- An instruction that is completed keeps the books. -/
theorem tick (h : Books c es d) (htick : Cpu.tick d.program d.jumps d.cpu = .ok () next) :
    Books c (es ++ [.ticked d { d with cpu := next } (.ok ())]) { d with cpu := next } := by
  have hticked := Cpu.ticked_of_advance (Cpu.tick_eq_ok.mp htick)
  obtain ⟨pc, i, hnext, hcarried⟩ := Cpu.carried_of_tick htick
  have hcurrent := currentInstruction?_of_next? hnext
  refine ⟨?_, ?_, ?_, ?_, ?_, h.program, h.jumps⟩
  · rw [hticked.steps, h.steps, List.foldl_append]
    rfl
  · rw [h.inbox, hcarried.inbox, filterMap_concat, List.append_assoc, Event.received?, hcurrent,
      Option.bind_some]
  · rw [hcarried.outbox, h.outbox, filterMap_concat, Event.sent?, hcurrent, Option.bind_some]
  · have hbefore : d.cpu.effort ≤ d.cpu.steps := h.effort
    have hafter : next.effort ≤ d.cpu.effort + 1 := hcarried.effort
    show next.effort ≤ next.steps
    rw [hticked.steps]
    omega
  · obtain ⟨pc, i, s, hnext, hs, hleads⟩ := hticked.moved
    refine ⟨s, hs, ?_⟩
    cases hleads with
    | next hnot =>
        have hi := (Cpu.next?_eq_some.mp hnext).2.2
        exact (Array.getElem?_eq_some_iff.mp hi).1
    | landing hi hland => exact (Destination.resolve_eq_ok.mp hland).2.le

/-- Nothing is written down when something else happens. -/
theorem idle (h : Books c es d) (he : ∀ before after, e ≠ .ticked before after (.ok ()))
    (halted : Bool) : Books c (es ++ [e]) (d.setHalted halted) := by
  have hnone : (∀ n, Event.count n e = n) ∧ e.received? = none ∧ e.sent? = none := by
    cases e with
    | asked | stopped => exact ⟨fun _ => rfl, rfl, rfl⟩
    | ticked before after result =>
        cases result with
        | ok u => exact absurd rfl (he before after)
        | error e => exact ⟨fun _ => rfl, rfl, rfl⟩
  obtain ⟨hcount, hreceived, hsent⟩ := hnone
  refine ⟨?_, ?_, ?_, h.effort, h.pc, h.program, h.jumps⟩
  · rw [List.foldl_append, List.foldl_cons, hcount]
    exact h.steps
  · rw [filterMap_concat, hreceived, Option.toList_none, List.append_nil]
    exact h.inbox
  · rw [filterMap_concat, hsent, Option.toList_none, List.append_nil]
    exact h.outbox

/-- The books are in order after a turn if they were before it. -/
theorem turned (h : Books c es l.computer)
    (hturned : Loop.Turned .unattended l es' e (.next l')) :
    Books c (es ++ (es' ++ [e])) l'.computer := by
  have hasked : ∀ {asked : List Event} {s : Unit}, Loop.Cleared .unattended l asked s →
      Books c (es ++ asked) l.computer := by
    intro asked s hclear
    cases hclear with
    | resumed hresumed =>
        rw [List.append_nil]
        exact h
    | asked hresumed hask => exact h.idle (by simp) l.computer.cpu.halted
  rw [← List.append_assoc]
  generalize ht : Turn.next l' = t at hturned
  cases hturned with
  | finish hrun hbefore hr =>
      rw [hr] at ht
      cases ht
  | «break» hrun hresumed hask hr => cases hask
  | tick hrun hclear htick =>
      cases ht
      exact (hasked hclear).tick htick
  | dry hrun hclear htick =>
      cases ht
      exact (hasked hclear).idle (by simp) true
  | fail hrun hclear htick he => cases ht

end Books

open Loop

theorem books_of_turns (hturns : Turns .unattended (start c ()) es (.next l)) :
    Books c es l.computer := by
  generalize ht : Turn.next l = t at hturns
  induction hturns generalizing l with
  | start =>
      cases ht
      exact .start c
  | @snoc es es' l₁ t before last ih =>
      subst ht
      obtain ⟨us, e, t', hturn, hturned⟩ := exists_turned .unattended l₁
      rw [hturn] at last
      cases last
      exact (ih rfl).turned hturned

/--
**A run keeps its books.**  Every row of ticks from the reset state is the beginning of a run.
Whatever has happened by then, the books are in order, and every outbox on the way is the
beginning of the outbox.
-/
theorem run_keeps_books (c : Computer) :
    (∀ n cpu, Ticks c.program c.jumps c.cpu.reset n cpu → cpu.steps = n ∧
      ∃ es, Turns .unattended (start c ()) es (.next ⟨{ c with cpu }, (), false⟩)) ∧
    ∀ es l, Turns .unattended (start c ()) es (.next l) → Books c es l.computer ∧
      ∀ es₁ es₂ l₁, es = es₁ ++ es₂ → Turns .unattended (start c ()) es₁ (.next l₁) →
        l₁.computer.cpu.outbox.toList <+: l.computer.cpu.outbox.toList := by
  constructor
  · intro n cpu hticks
    have hfree := Hook.unattended_unobtrusive
    obtain ⟨es, s, hturns⟩ := turns_of_ticks hfree.toPassive () hticks fun _ _ _ _ => hfree.passes _
    exact ⟨hticks.steps_of_reset, es, hturns⟩
  · intro es l hturns
    refine ⟨books_of_turns hturns, ?_⟩
    rintro es₁ es₂ l₁ rfl hearlier
    rw [(books_of_turns hturns).outbox, (books_of_turns hearlier).outbox, List.filterMap_append]
    exact List.prefix_append _ _

/-- Sends two values on with one instruction. -/
def courier : Computer where
  cpu := { inbox := [.letter 'A', .int 5, .int 6] }
  program := #[.moveFromInbox, .moveToOutbox, .moveFromInbox, .jump .always (.label "on")]
  jumps := ⟨[("on", 1)]⟩

theorem courier_keeps_books : ∃ es cpu,
    Ticks courier.program courier.jumps courier.cpu.reset 5 cpu ∧ cpu.steps = 5 ∧
    Turns .unattended (start courier ()) es (.next ⟨{ courier with cpu }, (), false⟩) ∧
    Books courier es { courier with cpu } ∧ cpu.outbox = #[.letter 'A', .int 5] ∧
    courier.cpu.reset.outbox.toList <+: cpu.outbox.toList := by
  have hticks : Ticks courier.program courier.jumps courier.cpu.reset 5 _ :=
    (((((.zero : Ticks _ _ _ 0 _).succ rfl).succ rfl).succ rfl).succ rfl).succ rfl
  obtain ⟨hsteps, es, hturns⟩ := (run_keeps_books courier).1 5 _ hticks
  obtain ⟨hbooks, hearlier⟩ := (run_keeps_books courier).2 es _ hturns
  exact ⟨es, _, hticks, hsteps, hturns, hbooks, rfl, hearlier [] es _ rfl .start⟩

end Computer

end Mailroom
