/-
Letters are never made.

Instructions carry letters from place to place, and what they compute is always an integer.
So a letter that is found anywhere in the machine was in the inbox or on a tile at the
beginning.  `Cpu.Within` puts this for any set of letters: a machine that shows no letter
outside the set shows none after an instruction either (`Within.effect`), and an
instruction that fails over a letter fails over one of the set (`Within.letter_of_effect`).

A machine that is given integers only therefore never fails over a letter.
-/
import Mailroom.Proofs.Computer.Course
import Mailroom.Proofs.Cpu.Boxes
import Mailroom.Proofs.Cpu.Failure

namespace Mailroom

variable {L : Char → Prop} {v w : Value} {t : Tile}

/-- If the value is a letter, it is one of the set. -/
def Value.Within (L : Char → Prop) (v : Value) : Prop :=
  ∀ c, v = .letter c → L c

theorem Value.within_int (n : Int64) : (Value.int n).Within L := by
  intro c h
  cases h

namespace Memory

variable {m : Memory} {e : Error} {c : Char}

/-- All letters on tiles are of the set. -/
def Within (L : Char → Prop) (m : Memory) : Prop :=
  ∀ (i : Nat) (v : Value), m.tiles[i]? = some v → v.Within L

theorem Within.write (h : m.Within L) (hv : v.Within L) (n : Nat) : (m.write n v).Within L := by
  intro i w hw
  rw [getElem?_write] at hw
  split at hw
  · cases hw
    exact hv
  · exact h i w hw

/-! ### Following a letter -/

/-- The letter that the failure is about. -/
def Error.letter? : Error → Option Char
  | indirectThroughLetter c => some c
  | tileEmpty _ | unknownLabel _ | invalidTileIndex _ => none

theorem resolve_error {key : TileRef} (h : m.resolve key = .error e) : e.letter? = none := by
  unfold resolve at h
  split at h
  · cases h
  · split at h
    · cases h
      rfl
    · split at h
      · cases h
      · cases h
        rfl

theorem fetch_error {index : Nat} (h : m.fetch index = .error e) : e.letter? = none := by
  unfold fetch at h
  split at h
  · cases h
  · cases h
    rfl

/-- Only a letter can be a letter that was taken for a number. -/
theorem pointer_error (h : pointer v = .error e) (hc : e.letter? = some c) :
    v = .letter c := by
  unfold pointer at h
  split at h
  · cases h
    cases hc
    rfl
  · split at h
    · cases h
      cases hc
    · cases h

theorem Within.letter_of_target (h : m.Within L) (htarget : m.target t = .error e)
    (hc : e.letter? = some c) : L c := by
  rcases Cpu.error_of_bind htarget with hresolve | ⟨index, -, hrest⟩
  · rw [resolve_error hresolve] at hc
    cases hc
  · split at hrest
    · rcases Cpu.error_of_bind hrest with hfetch | ⟨v, hfetch, hpointer⟩
      · rw [fetch_error hfetch] at hc
        cases hc
      · exact h index v (fetch_eq_ok.mp hfetch) c (pointer_error hpointer hc)
    · cases hrest

theorem Within.letter_of_get (h : m.Within L) (hget : m.get t = .error e)
    (hc : e.letter? = some c) : L c := by
  rcases Cpu.error_of_bind hget with htarget | ⟨index, -, hfetch⟩
  · exact h.letter_of_target htarget hc
  · rw [fetch_error hfetch] at hc
    cases hc

theorem Within.letter_of_set (h : m.Within L) (hset : m.set t v = .error e)
    (hc : e.letter? = some c) : L c := by
  rcases Cpu.error_of_bind hset with htarget | ⟨index, -, hrest⟩
  · exact h.letter_of_target htarget hc
  · cases hrest

end Memory

namespace Cpu

variable {program : Program} {jumps : JumpTable} {start cpu after : Cpu} {i : Instruction}
  {pc size s : Nat} {e : Error} {c : Char}

/-! ### An instruction makes no letter -/

/-- All letters in the machine are of the set. -/
structure Within (L : Char → Prop) (cpu : Cpu) : Prop where
  accumulator : ∀ v ∈ cpu.accumulator, v.Within L
  inbox : ∀ v ∈ cpu.inbox, v.Within L
  outbox : ∀ v ∈ cpu.outbox, v.Within L
  memory : cpu.memory.Within L

namespace Within

theorem held (h : cpu.Within L) (hheld : cpu.held = .ok v) : v.Within L :=
  h.accumulator v (held_eq_ok.mp hheld)

theorem seen (h : cpu.Within L) (hseen : cpu.seen t = .ok v) : v.Within L := by
  obtain ⟨n, -, htile⟩ := seen_eq_ok.mp hseen
  exact h.memory n v htile

theorem holding (h : cpu.Within L) (hv : v.Within L) : (cpu.holding v).Within L where
  accumulator := by
    intro w hw
    cases hw
    exact hv
  inbox := h.inbox
  outbox := h.outbox
  memory := h.memory

/-- **No instruction makes a letter.** -/
theorem effect (h : cpu.Within L) (heffect : cpu.effect i pc size jumps = .ok (s, after)) :
    after.Within L := by
  cases effect_eq_ok.mp heffect with
  | @moveFromInbox v rest hinbox =>
      have hall := h.inbox
      rw [hinbox] at hall
      obtain ⟨hv, hrest⟩ := List.forall_mem_cons.mp hall
      have hholding := h.holding hv
      exact ⟨hholding.accumulator, hrest, h.outbox, h.memory⟩
  | @moveToOutbox v hacc =>
      refine ⟨by simp, h.inbox, ?_, h.memory⟩
      intro w hw
      rcases Array.mem_push.mp hw with hw | rfl
      · exact h.outbox w hw
      · exact h.accumulator w hacc
  | copyFrom _ htile => exact h.holding (h.memory _ _ htile)
  | copyTo hacc _ => exact { h with memory := h.memory.write (h.accumulator _ hacc) _ }
  | add | subtract | subtractLetters => exact h.holding (Value.within_int _)
  | @bumpUp _ n _ result | @bumpDown _ n _ result =>
      have hresult : (Value.int result).Within L := Value.within_int result
      exact { h.holding hresult with memory := h.memory.write hresult n }
  | _ => exact h

theorem tick (h : cpu.Within L) (htick : Cpu.tick program jumps cpu = .ok () after) :
    after.Within L := by
  obtain ⟨pc, i, s, worked, -, heffect, rfl⟩ := advance_eq_ok.mp (tick_eq_ok.mp htick)
  have hworked := h.effect heffect
  exact ⟨hworked.accumulator, hworked.inbox, hworked.outbox, hworked.memory⟩

theorem ticks {n : Nat} (h : start.Within L) (hticks : Ticks program jumps start n cpu) :
    cpu.Within L := by
  induction hticks with
  | zero => exact h
  | succ _ htick ih => exact ih.tick htick

end Within

/-! ### Failing over a letter -/

/-- The letter that the failure is about. -/
def Error.letter? : Error → Option Char
  | memory cause => cause.letter?
  | incompatibleTypes _ letter => some letter
  | inboxEmpty | accumulatorEmpty | noSuchJumpDestination _ | overflow _ | halted => none

theorem letter_of_held (h : cpu.held = .error e) : e.letter? = none := by
  unfold held at h
  split at h
  · cases h
  · cases h
    rfl

theorem letter_of_fit {op : Opcode} {n : Int} (h : fit op n = .error e) : e.letter? = none := by
  unfold fit at h
  split at h
  · cases h
  · cases h
    rfl

theorem letter_of_sum {op : Opcode} (h : sum op v w = .error e) (hc : e.letter? = some c) :
    v = .letter c ∨ w = .letter c := by
  unfold sum at h
  split at h
  · rw [letter_of_fit h] at hc
    cases hc
  · cases h
    cases hc
    exact Or.inl rfl
  · cases h
    cases hc
    exact Or.inr rfl

theorem letter_of_difference {op : Opcode} (h : difference op v w = .error e)
    (hc : e.letter? = some c) : v = .letter c ∨ w = .letter c := by
  unfold difference at h
  split at h
  · rw [letter_of_fit h] at hc
    cases hc
  · rw [letter_of_fit h] at hc
    cases hc
  · cases h
    cases hc
    exact Or.inl rfl
  · cases h
    cases hc
    exact Or.inr rfl

namespace Within

theorem letter_of_seen (h : cpu.Within L) (hseen : cpu.seen t = .error e)
    (hc : e.letter? = some c) : L c := by
  unfold Cpu.seen at hseen
  cases hget : cpu.memory.get t with
  | ok w => rw [hget] at hseen; cases hseen
  | error cause =>
      rw [hget] at hseen
      cases hseen
      exact h.memory.letter_of_get hget hc

theorem letter_of_put (h : cpu.Within L) (hput : cpu.put t v = .error e)
    (hc : e.letter? = some c) : L c := by
  unfold Cpu.put at hput
  split at hput
  · cases hput
  · next cause hset =>
    cases hput
    exact h.memory.letter_of_set hset hc

theorem letter_of_bumped {op : Opcode} {change : Int64} (h : cpu.Within L)
    (hbump : cpu.bumped op t change = .error e) (hc : e.letter? = some c) : L c := by
  rcases error_of_bind hbump with hseen | ⟨v, hseen, hbump⟩
  · exact h.letter_of_seen hseen hc
  rcases error_of_bind hbump with hsum | ⟨w, -, hbump⟩
  · rcases letter_of_sum hsum hc with hv | hchange
    · exact h.seen hseen c hv
    · cases hchange
  rcases error_of_bind hbump with hput | ⟨written, -, hbump⟩
  · exact h.letter_of_put hput hc
  · cases hbump

/-- Both operands of an operation on two values are of the set. -/
theorem letter_of_combined {f : Value → Value → Except Error Value} (h : cpu.Within L)
    (hf : ∀ {v w}, f v w = .error e → v = .letter c ∨ w = .letter c)
    (herror : (do
      let v ← cpu.held
      return cpu.holding (← f v (← cpu.seen t))) = .error e)
    (hc : e.letter? = some c) : L c := by
  rcases error_of_bind herror with hheld | ⟨v, hheld, herror⟩
  · rw [letter_of_held hheld] at hc
    cases hc
  rcases error_of_bind herror with hseen | ⟨w, hseen, herror⟩
  · exact h.letter_of_seen hseen hc
  rcases error_of_bind herror with herror | ⟨x, -, herror⟩
  · rcases hf herror with hv | hw
    · exact h.held hheld c hv
    · exact h.seen hseen c hw
  · cases herror

theorem letter_of_worked {action : TileAction} (h : cpu.Within L)
    (hwork : cpu.worked action t = .error e) (hc : e.letter? = some c) : L c := by
  cases action with
  | copyFrom =>
      rcases error_of_bind hwork with hseen | ⟨v, -, hwork⟩
      · exact h.letter_of_seen hseen hc
      · cases hwork
  | copyTo =>
      rcases error_of_bind hwork with hheld | ⟨v, -, hput⟩
      · rw [letter_of_held hheld] at hc
        cases hc
      · exact h.letter_of_put hput hc
  | add => exact h.letter_of_combined (fun hsum => letter_of_sum hsum hc) hwork hc
  | subtract => exact h.letter_of_combined (fun hsub => letter_of_difference hsub hc) hwork hc
  | bumpUp => exact h.letter_of_bumped hwork hc
  | bumpDown => exact h.letter_of_bumped hwork hc

theorem letter_of_taken {condition : Condition} (h : cpu.Within L)
    (htaken : cpu.taken condition = .error e) (hc : e.letter? = some c) : L c := by
  have hread : ∀ condition, cpu.held >>= satisfies condition = .error e → L c := by
    intro condition hread
    rcases error_of_bind hread with hheld | ⟨v, hheld, hread⟩
    · rw [letter_of_held hheld] at hc
      cases hc
    · unfold satisfies at hread
      split at hread
      · cases hread
      · cases hread
      · cases hread
      · cases hread
        cases hc
        exact h.held hheld c rfl
  cases condition with
  | always => cases htaken
  | ifZero => exact hread .ifZero htaken
  | ifNegative => exact hread .ifNegative htaken

/-- **An instruction that fails over a letter fails over one of the set.** -/
theorem letter_of_effect (h : cpu.Within L) (heffect : cpu.effect i pc size jumps = .error e)
    (hc : e.letter? = some c) : L c := by
  cases i with
  | noOp => cases heffect
  | moveFromInbox =>
      simp only [Cpu.effect] at heffect
      split at heffect
      · cases heffect
        cases hc
      · cases heffect
  | moveToOutbox =>
      rcases error_of_bind heffect with hheld | ⟨v, -, heffect⟩
      · rw [letter_of_held hheld] at hc
        cases hc
      · cases heffect
  | onTile action t =>
      rcases error_of_bind heffect with hwork | ⟨worked, -, heffect⟩
      · exact h.letter_of_worked hwork hc
      · cases heffect
  | jump condition d =>
      rcases error_of_bind heffect with htaken | ⟨b, -, heffect⟩
      · exact h.letter_of_taken htaken hc
      cases b with
      | false => cases heffect
      | true =>
          rcases error_of_bind heffect with hresolve | ⟨step, -, heffect⟩
          · rw [Destination.resolve_eq] at hresolve
            split at hresolve
            · split at hresolve <;> cases hresolve
              cases hc
            · cases hresolve
              cases hc
          · cases heffect

theorem letter_of_tick (h : cpu.Within L) (htick : Cpu.tick program jumps cpu = .error e after)
    (hc : e.letter? = some c) : L c := by
  rcases advance_eq_error.mp (tick_eq_error.mp htick).1 with ⟨-, rfl⟩ | ⟨pc, i, -, heffect⟩
  · cases hc
  · exact h.letter_of_effect heffect hc

end Within

/-! ### Where letters come from -/

/-- The letter is in the inbox or on a tile. -/
def Provides (cpu : Cpu) (c : Char) : Prop :=
  .letter c ∈ cpu.inbox ∨ ∃ i : Nat, cpu.memory.tiles[i]? = some (.letter c)

/-- The letter is somewhere in the machine. -/
def Shows (cpu : Cpu) (c : Char) : Prop :=
  cpu.accumulator = some (.letter c) ∨ .letter c ∈ cpu.outbox ∨ cpu.Provides c

theorem within_reset (cpu : Cpu) : cpu.reset.Within cpu.Provides where
  accumulator := by simp [reset]
  inbox := by
    rintro v hv c rfl
    exact Or.inl hv
  outbox := by simp [reset]
  memory := by
    rintro i v hv c rfl
    exact Or.inr ⟨i, hv⟩

theorem Within.of_shows (h : cpu.Within L) (hc : cpu.Shows c) : L c := by
  rcases hc with hc | hc | hc | ⟨i, hc⟩
  · exact h.accumulator _ hc c rfl
  · exact h.outbox _ hc c rfl
  · exact h.inbox _ hc c rfl
  · exact h.memory i _ hc c rfl

end Cpu

namespace Computer

open Cpu (Ticks)

/-- A run that fails over a letter had the letter to begin with. -/
theorem letter_of_run {c : Computer} {fuel : Nat} {o : Outcome Unit} {e : Cpu.Error} {l : Char}
    (hrun : c.run fuel = some o) (hresult : o.result = .error e) (hl : e.letter? = some l) :
    c.cpu.Provides l := by
  obtain ⟨n, cpu, hticks, hends, -⟩ := run_iff_ends.mp ⟨fuel, hrun⟩
  rw [hresult] at hends
  cases hends with
  | failed hin htick he =>
      exact ((Cpu.within_reset c.cpu).ticks hticks).letter_of_tick htick hl

/--
**Letters are never invented.**  A letter that is anywhere in the machine after some ticks was
in the inbox or on a tile at the beginning, and so was a letter over which the next tick
fails.  If there was none, no run ends over a letter.
-/
theorem run_invents_no_letter (c : Computer) :
    (∀ n cpu, Ticks c.program c.jumps c.cpu.reset n cpu →
      (∀ l, cpu.Shows l → c.cpu.Provides l) ∧
      ∀ e after l, Cpu.tick c.program c.jumps cpu = .error e after → e.letter? = some l →
        c.cpu.Provides l) ∧
    ((∀ l, ¬ c.cpu.Provides l) → ∀ fuel o, c.run fuel = some o →
      (∀ op l, o.result ≠ .error (.incompatibleTypes op l)) ∧
      ∀ l, o.result ≠ .error (.memory (.indirectThroughLetter l))) := by
  constructor
  · intro n cpu hticks
    have hwithin := (Cpu.within_reset c.cpu).ticks hticks
    constructor
    · intro l hl
      exact hwithin.of_shows hl
    · intro e after l htick hl
      exact hwithin.letter_of_tick htick hl
  · intro hnone fuel o hrun
    constructor
    · intro op l hresult
      exact hnone l (letter_of_run hrun hresult rfl)
    · intro l hresult
      exact hnone l (letter_of_run hrun hresult rfl)

/-- Lays a letter on the tile that another tile points to, and compares it with a third one. -/
def sorter : Computer where
  cpu :=
    { inbox := [.letter 'B', .int 4],
      memory := { tiles := .ofList [(0, Value.int 7), (1, Value.letter 'A')] } }
  program := #[.moveFromInbox, .onTile .copyTo ⟨.index 0, true⟩,
    .onTile .subtract ⟨.index 1, false⟩, .onTile .add ⟨.index 7, false⟩]

/-- Adds without end to what it is given. -/
def adder : Computer where
  cpu :=
    { inbox := [.int 4],
      memory := { tiles := Std.ExtTreeMap.insert ∅ 0 (.int 9223372036854775800) } }
  program := #[.moveFromInbox, .onTile .add ⟨.index 0, false⟩, .jump .always (.step 1)]

theorem sorter_invents_no_letter :
    (∃ cpu after, Ticks sorter.program sorter.jumps sorter.cpu.reset 3 cpu ∧
      cpu.memory.tiles[7]? = some (.letter 'B') ∧ sorter.cpu.Provides 'B' ∧
      Cpu.tick sorter.program sorter.jumps cpu
        = .error (.incompatibleTypes (.onTile .add) 'B') after) ∧
    ∃ o, adder.run 5 = some o ∧ o.result = .error (.overflow (.onTile .add)) ∧
      ∀ op l, o.result ≠ .error (.incompatibleTypes op l) := by
  constructor
  · have hticks : Ticks sorter.program sorter.jumps sorter.cpu.reset 3 _ :=
      (((.zero : Ticks _ _ _ 0 _).succ rfl).succ rfl).succ rfl
    obtain ⟨hshows, -⟩ := (run_invents_no_letter sorter).1 3 _ hticks
    exact ⟨_, _, hticks, rfl, hshows 'B' (Or.inr (Or.inr (Or.inr ⟨7, rfl⟩))), rfl⟩
  · have hnone : ∀ l, ¬ adder.cpu.Provides l := by
      rintro l (hl | ⟨i, hl⟩)
      · simp [adder] at hl
      · rw [adder, Std.ExtTreeMap.getElem?_insert] at hl
        split at hl
        · cases hl
        · simp at hl
    exact ⟨_, rfl, rfl, ((run_invents_no_letter adder).2 hnone 5 _ rfl).1⟩

end Computer

end Mailroom
