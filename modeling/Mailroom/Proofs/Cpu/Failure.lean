/-
Why an instruction fails.

Most failures have to do with the values that an instruction works on: an empty
accumulator or tile, a letter where an integer is asked for, a result that does not fit.
`OfValues` names this kind.  The others belong to one instruction each, an empty inbox to
taking a value from it and a missing destination to a jump, and `effect_error` says that
nothing else can go wrong.  In particular a machine that has a next instruction is never
refused for not running.
-/
import Mailroom.Proofs.Cpu.Tick

namespace Mailroom

namespace Cpu

theorem error_of_bind {ε α β : Type} {r : Except ε α} {g : α → Except ε β} {e : ε}
    (h : r >>= g = .error e) : r = .error e ∨ ∃ a, r = .ok a ∧ g a = .error e := by
  cases r with
  | error e' =>
      cases h
      exact Or.inl rfl
  | ok a => exact Or.inr ⟨a, rfl, h⟩

/-- A failure over the values that an instruction works on. -/
def Error.OfValues : Error → Prop
  | memory _ | accumulatorEmpty | incompatibleTypes _ _ | overflow _ => True
  | inboxEmpty | noSuchJumpDestination _ | halted => False

/-! ### Failures of the parts -/

variable {cpu : Cpu} {e : Error}

theorem held_error (h : cpu.held = .error e) : e.OfValues := by
  unfold held at h
  split at h
  · cases h
  · cases h
    trivial

theorem seen_error {t : Tile} (h : cpu.seen t = .error e) : e.OfValues := by
  unfold seen at h
  cases hget : cpu.memory.get t with
  | ok v => rw [hget] at h; cases h
  | error cause =>
      rw [hget] at h
      cases h
      trivial

theorem put_error {t : Tile} {v : Value} (h : cpu.put t v = .error e) : e.OfValues := by
  unfold put at h
  split at h
  · cases h
  · cases h
    trivial

theorem fit_error {op : Opcode} {n : Int} (h : fit op n = .error e) : e.OfValues := by
  unfold fit at h
  split at h
  · cases h
  · cases h
    trivial

theorem sum_error {op : Opcode} {v w : Value} (h : sum op v w = .error e) : e.OfValues := by
  unfold sum at h
  split at h
  · exact fit_error h
  · cases h
    trivial
  · cases h
    trivial

theorem difference_error {op : Opcode} {v w : Value} (h : difference op v w = .error e) :
    e.OfValues := by
  unfold difference at h
  split at h
  · exact fit_error h
  · exact fit_error h
  · cases h
    trivial
  · cases h
    trivial

theorem bumped_error {op : Opcode} {t : Tile} {change : Int64}
    (h : cpu.bumped op t change = .error e) : e.OfValues := by
  rcases error_of_bind h with h | ⟨v, -, h⟩
  · exact seen_error h
  rcases error_of_bind h with h | ⟨w, -, h⟩
  · exact sum_error h
  rcases error_of_bind h with h | ⟨written, -, h⟩
  · exact put_error h
  · cases h

theorem worked_error {action : TileAction} {t : Tile} (h : cpu.worked action t = .error e) :
    e.OfValues := by
  cases action with
  | copyFrom =>
      rcases error_of_bind h with h | ⟨v, -, h⟩
      · exact seen_error h
      · cases h
  | copyTo =>
      rcases error_of_bind h with h | ⟨v, -, h⟩
      · exact held_error h
      · exact put_error h
  | add =>
      rcases error_of_bind h with h | ⟨v, -, h⟩
      · exact held_error h
      rcases error_of_bind h with h | ⟨w, -, h⟩
      · exact seen_error h
      rcases error_of_bind h with h | ⟨x, -, h⟩
      · exact sum_error h
      · cases h
  | subtract =>
      rcases error_of_bind h with h | ⟨v, -, h⟩
      · exact held_error h
      rcases error_of_bind h with h | ⟨w, -, h⟩
      · exact seen_error h
      rcases error_of_bind h with h | ⟨x, -, h⟩
      · exact difference_error h
      · cases h
  | bumpUp => exact bumped_error h
  | bumpDown => exact bumped_error h

theorem satisfies_error {condition : Condition} {v : Value}
    (h : satisfies condition v = .error e) : e.OfValues := by
  unfold satisfies at h
  split at h
  · cases h
  · cases h
  · cases h
  · cases h
    trivial

theorem taken_error {condition : Condition} (h : cpu.taken condition = .error e) :
    e.OfValues := by
  have hread : ∀ c : Condition, cpu.held >>= satisfies c = .error e → e.OfValues := by
    intro c h
    rcases error_of_bind h with h | ⟨v, -, h⟩
    · exact held_error h
    · exact satisfies_error h
  cases condition with
  | always => cases h
  | ifZero => exact hread .ifZero h
  | ifNegative => exact hread .ifNegative h

/-! ### Failures of an instruction -/

/-- **All that can go wrong in an instruction.** -/
theorem effect_error {i : Instruction} {pc size : Nat} {jumps : JumpTable}
    (h : cpu.effect i pc size jumps = .error e) :
    e.OfValues ∨ (i = .moveFromInbox ∧ cpu.inbox = [] ∧ e = .inboxEmpty) ∨
      ∃ condition d, i = .jump condition d ∧ d.resolve jumps size = .error e ∧
        e = .noSuchJumpDestination d := by
  cases i with
  | noOp => cases h
  | moveFromInbox =>
      simp only [effect] at h
      split at h
      · rename_i hinbox
        cases h
        exact Or.inr (Or.inl ⟨rfl, hinbox, rfl⟩)
      · cases h
  | moveToOutbox =>
      rcases error_of_bind h with h | ⟨v, -, h⟩
      · exact Or.inl (held_error h)
      · cases h
  | onTile action t =>
      rcases error_of_bind h with h | ⟨worked, -, h⟩
      · exact Or.inl (worked_error h)
      · cases h
  | jump condition d =>
      rcases error_of_bind h with h | ⟨b, -, h⟩
      · exact Or.inl (taken_error h)
      cases b with
      | false => cases h
      | true =>
          rcases error_of_bind h with h | ⟨step, -, h⟩
          · refine Or.inr (Or.inr ⟨condition, d, rfl, h, ?_⟩)
            rw [Destination.resolve_eq] at h
            split at h
            · split at h <;> cases h
              rfl
            · cases h
              rfl
          · cases h

/-- A tick fails because nothing is running or because its instruction fails. -/
theorem advance_eq_error {program : Program} {jumps : JumpTable} :
    cpu.advance program jumps = .error e ↔
      (cpu.next? program = none ∧ e = .halted) ∨
        ∃ pc i, cpu.next? program = some (pc, i) ∧
          cpu.effect i pc program.size jumps = .error e := by
  unfold advance
  cases hnext : cpu.next? program with
  | none => simp [eq_comm]
  | some next =>
      obtain ⟨pc, i⟩ := next
      constructor
      · intro h
        rcases error_of_bind h with h | ⟨⟨s, after⟩, -, h⟩
        · exact Or.inr ⟨pc, i, rfl, h⟩
        · cases h
      · rintro (⟨hnone, -⟩ | ⟨pc', i', heq, h⟩)
        · cases hnone
        · cases heq
          simp only [h]
          rfl

/-- A running machine is not refused for not running. -/
theorem tick_ne_halted {program : Program} {jumps : JumpTable} {after : Cpu}
    (hrun : (cpu.next? program).isSome = true)
    (h : tick program jumps cpu = .error e after) : e ≠ .halted := by
  rcases advance_eq_error.mp (tick_eq_error.mp h).1 with ⟨hnone, -⟩ | ⟨pc, i, -, heffect⟩
  · rw [hnone] at hrun
    cases hrun
  · rintro rfl
    rcases effect_error heffect with h | ⟨-, -, h⟩ | ⟨condition, d, -, -, h⟩
    · exact h
    · cases h
    · cases h

end Cpu

end Mailroom
