/-
The instruction table.

For each way in which an instruction can be carried out the table has a row.  It lists what the
machine must be like, which step follows, and what is then different; all else stays as it was.
Where no row fits, the instruction fails.  The rows do not say what is looked at first, and they
do not compute: a sum is the integer that equals it, so there is none if it takes more than 64
bits.

Instructions are carried out by this table (`effect_eq_ok`).  What is true of all of them is
shown by going through the rows.
-/
import Mailroom.Proofs.Cpu.Effect
import Mailroom.Proofs.Memory
import Mailroom.Proofs.Numeral

namespace Mailroom

namespace Destination

/-- The step that a destination names, in the program or not. -/
def named? (d : Destination) (jumps : JumpTable) : Option Nat :=
  match d with
  | .step s => some s
  | .label name => jumps.get? name

theorem resolve_eq (d : Destination) (jumps : JumpTable) (size : Nat) :
    d.resolve jumps size = match d.named? jumps with
      | some s => if s < size then .ok s else .error (.noSuchJumpDestination d)
      | none => .error (.noSuchJumpDestination d) := by
  cases d with
  | step s => rfl
  | label name => cases h : jumps.get? name <;> simp [resolve, named?, h]

/-- A jump lands on the step its destination names, and only inside the program. -/
theorem resolve_eq_ok {d : Destination} {jumps : JumpTable} {size s : Nat} :
    d.resolve jumps size = .ok s ↔ d.named? jumps = some s ∧ s < size := by
  rw [resolve_eq]
  cases d.named? jumps with
  | none => simp
  | some t =>
      by_cases hlt : t < size
      · simp only [hlt, if_true, Except.ok.injEq, Option.some.injEq]
        constructor
        · rintro rfl
          exact ⟨rfl, hlt⟩
        · exact And.left
      · simp only [hlt, if_false, Option.some.injEq, reduceCtorEq, false_iff, not_and]
        rintro rfl
        exact hlt

end Destination

namespace Cpu

/--
`Row jumps size pc cpu i s after`: at step `pc` of a program of this size the machine `cpu` can
carry out instruction `i`, which makes it `after`, and step `s` follows.
-/
inductive Row (jumps : JumpTable) (size pc : Nat) (cpu : Cpu) : Instruction → Nat → Cpu → Prop
  | noOp : Row jumps size pc cpu .noOp (pc + 1) cpu
  | moveFromInbox {v : Value} {rest : List Value} (hinbox : cpu.inbox = v :: rest) :
      Row jumps size pc cpu .moveFromInbox (pc + 1)
        { cpu with inbox := rest, accumulator := some v }
  | moveToOutbox {v : Value} (hacc : cpu.accumulator = some v) :
      Row jumps size pc cpu .moveToOutbox (pc + 1)
        { cpu with outbox := cpu.outbox.push v, accumulator := none }
  | copyFrom {t : Tile} {n : Nat} {v : Value} (hmeans : cpu.memory.Means t n)
      (htile : cpu.memory.tiles[n]? = some v) :
      Row jumps size pc cpu (.onTile .copyFrom t) (pc + 1) { cpu with accumulator := some v }
  /-- The tile may be empty. -/
  | copyTo {t : Tile} {n : Nat} {v : Value} (hacc : cpu.accumulator = some v)
      (hmeans : cpu.memory.Means t n) :
      Row jumps size pc cpu (.onTile .copyTo t) (pc + 1)
        { cpu with memory := cpu.memory.write n v }
  | add {t : Tile} {n : Nat} {a b sum : Int64} (hacc : cpu.accumulator = some (.int a))
      (hmeans : cpu.memory.Means t n) (htile : cpu.memory.tiles[n]? = some (.int b))
      (hsum : sum.toInt = a.toInt + b.toInt) :
      Row jumps size pc cpu (.onTile .add t) (pc + 1) { cpu with accumulator := some (.int sum) }
  | subtract {t : Tile} {n : Nat} {a b diff : Int64} (hacc : cpu.accumulator = some (.int a))
      (hmeans : cpu.memory.Means t n) (htile : cpu.memory.tiles[n]? = some (.int b))
      (hdiff : diff.toInt = a.toInt - b.toInt) :
      Row jumps size pc cpu (.onTile .subtract t) (pc + 1)
        { cpu with accumulator := some (.int diff) }
  /-- Letters are as far from each other as their code points. -/
  | subtractLetters {t : Tile} {n : Nat} {a b : Char} {diff : Int64}
      (hacc : cpu.accumulator = some (.letter a)) (hmeans : cpu.memory.Means t n)
      (htile : cpu.memory.tiles[n]? = some (.letter b))
      (hdiff : diff.toInt = (a.toNat : Int) - b.toNat) :
      Row jumps size pc cpu (.onTile .subtract t) (pc + 1)
        { cpu with accumulator := some (.int diff) }
  | bumpUp {t : Tile} {n : Nat} {a sum : Int64} (hmeans : cpu.memory.Means t n)
      (htile : cpu.memory.tiles[n]? = some (.int a)) (hsum : sum.toInt = a.toInt + 1) :
      Row jumps size pc cpu (.onTile .bumpUp t) (pc + 1)
        { cpu with memory := cpu.memory.write n (.int sum), accumulator := some (.int sum) }
  | bumpDown {t : Tile} {n : Nat} {a diff : Int64} (hmeans : cpu.memory.Means t n)
      (htile : cpu.memory.tiles[n]? = some (.int a)) (hdiff : diff.toInt = a.toInt - 1) :
      Row jumps size pc cpu (.onTile .bumpDown t) (pc + 1)
        { cpu with memory := cpu.memory.write n (.int diff), accumulator := some (.int diff) }
  | jump {d : Destination} {s : Nat} (hnamed : d.named? jumps = some s) (hlt : s < size) :
      Row jumps size pc cpu (.jump .always d) s cpu
  | jumpIfZero {d : Destination} {s : Nat} (hacc : cpu.accumulator = some (.int 0))
      (hnamed : d.named? jumps = some s) (hlt : s < size) :
      Row jumps size pc cpu (.jump .ifZero d) s cpu
  /-- A letter is not zero. -/
  | passIfZero {d : Destination} {v : Value} (hacc : cpu.accumulator = some v)
      (hne : v ≠ .int 0) : Row jumps size pc cpu (.jump .ifZero d) (pc + 1) cpu
  | jumpIfNegative {d : Destination} {s : Nat} {a : Int64}
      (hacc : cpu.accumulator = some (.int a)) (hneg : a.toInt < 0)
      (hnamed : d.named? jumps = some s) (hlt : s < size) :
      Row jumps size pc cpu (.jump .ifNegative d) s cpu
  /-- A letter is neither negative nor the opposite. -/
  | passIfNegative {d : Destination} {a : Int64} (hacc : cpu.accumulator = some (.int a))
      (hnonneg : 0 ≤ a.toInt) : Row jumps size pc cpu (.jump .ifNegative d) (pc + 1) cpu

variable {cpu after : Cpu} {t : Tile} {op : Opcode} {v w x : Value} {n : Int}
  {jumps : JumpTable} {pc size s : Nat} {i : Instruction} {d : Destination}

/-! ### Parts that succeed -/

theorem held_eq_ok : cpu.held = .ok v ↔ cpu.accumulator = some v := by
  unfold held
  cases cpu.accumulator <;> simp

theorem seen_eq_ok : cpu.seen t = .ok v ↔
    ∃ n, cpu.memory.Means t n ∧ cpu.memory.tiles[n]? = some v := by
  rw [← Memory.get_eq_ok, seen]
  cases cpu.memory.get t <;> simp [Except.mapError]

theorem put_eq_ok : cpu.put t v = .ok after ↔
    ∃ n, cpu.memory.Means t n ∧ after = { cpu with memory := cpu.memory.write n v } := by
  have hput : cpu.put t v = .ok after ↔
      ∃ m, cpu.memory.set t v = .ok m ∧ { cpu with memory := m } = after := by
    unfold put
    cases cpu.memory.set t v <;> simp
  rw [hput]
  constructor
  · rintro ⟨m, hset, rfl⟩
    obtain ⟨n, hmeans, rfl⟩ := Memory.set_eq_ok.mp hset
    exact ⟨n, hmeans, rfl⟩
  · rintro ⟨n, hmeans, rfl⟩
    exact ⟨_, Memory.set_eq_ok.mpr ⟨n, hmeans, rfl⟩, rfl⟩

theorem fit_eq_ok : fit op n = .ok v ↔ ∃ w : Int64, w.toInt = n ∧ v = .int w := by
  have hfit : fit op n = .ok v ↔ ∃ w, Numeral.word? n = some w ∧ v = .int w := by
    unfold fit
    cases Numeral.word? n <;> simp [eq_comm]
  simp only [hfit, Numeral.word?_eq_some]

theorem sum_eq_ok : sum op v w = .ok x ↔ ∃ a b c : Int64,
    v = .int a ∧ w = .int b ∧ c.toInt = a.toInt + b.toInt ∧ x = .int c := by
  cases v <;> cases w <;> simp [sum, fit_eq_ok]

theorem difference_eq_ok : difference op v w = .ok x ↔
    (∃ a b c : Int64, v = .int a ∧ w = .int b ∧ c.toInt = a.toInt - b.toInt ∧ x = .int c) ∨
    ∃ (a b : Char) (c : Int64), v = .letter a ∧ w = .letter b ∧
      c.toInt = (a.toNat : Int) - b.toNat ∧ x = .int c := by
  cases v <;> cases w <;> simp [difference, fit_eq_ok]

/-- A condition asks the accumulator. -/
theorem taken_eq_ok {condition : Condition} {b : Bool} (hne : condition ≠ .always) :
    cpu.taken condition = .ok b ↔
      ∃ v, cpu.accumulator = some v ∧ satisfies condition v = .ok b := by
  have htaken : cpu.taken condition = cpu.held >>= satisfies condition := by
    cases condition with
    | always => exact absurd rfl hne
    | ifZero => rfl
    | ifNegative => rfl
  simp only [htaken, bind_eq_ok, held_eq_ok]

/-- The tile that is read is the tile that is written. -/
theorem bumped_eq_ok {change : Int64} : cpu.bumped op t change = .ok after ↔
    ∃ n a c, cpu.memory.Means t n ∧ cpu.memory.tiles[n]? = some (.int a) ∧
      c.toInt = a.toInt + change.toInt ∧
      after = { cpu with memory := cpu.memory.write n (.int c), accumulator := some (.int c) } := by
  have hbumped : cpu.bumped op t change = cpu.seen t >>= fun v => sum op v (.int change) >>= fun w =>
      cpu.put t w >>= fun written => .ok (written.holding w) := rfl
  simp only [hbumped, bind_eq_ok, seen_eq_ok, sum_eq_ok, put_eq_ok, Except.ok.injEq]
  constructor
  · rintro ⟨v, ⟨n, hmeans, htile⟩, w, ⟨a, b, c, rfl, hb, hc, rfl⟩, written, ⟨k, hk, rfl⟩, rfl⟩
    cases hb
    obtain rfl := hmeans.unique hk
    exact ⟨n, a, c, hmeans, htile, hc, rfl⟩
  · rintro ⟨n, a, c, hmeans, htile, hc, rfl⟩
    exact ⟨_, ⟨n, hmeans, htile⟩, _, ⟨a, change, c, rfl, rfl, hc, rfl⟩, _, ⟨n, hmeans, rfl⟩, rfl⟩

/-- The accumulator and a tile taken together. -/
theorem combined_eq_ok {f : Value → Value → Except Error Value} :
    (do
      let v ← cpu.held
      return cpu.holding (← f v (← cpu.seen t))) = .ok after ↔
    ∃ v n w x, cpu.accumulator = some v ∧ cpu.memory.Means t n ∧
      cpu.memory.tiles[n]? = some w ∧ f v w = .ok x ∧ after = cpu.holding x := by
  simp only [bind_eq_ok, held_eq_ok, seen_eq_ok]
  constructor
  · rintro ⟨v, hacc, w, ⟨n, hmeans, htile⟩, x, hf, h⟩
    cases h
    exact ⟨v, n, w, x, hacc, hmeans, htile, hf, rfl⟩
  · rintro ⟨v, n, w, x, hacc, hmeans, htile, hf, rfl⟩
    exact ⟨v, hacc, w, ⟨n, hmeans, htile⟩, x, hf, rfl⟩

/-! ### Whole instructions -/

theorem row_of_worked {action : TileAction} (h : cpu.worked action t = .ok after) :
    Row jumps size pc cpu (.onTile action t) (pc + 1) after := by
  cases action with
  | copyFrom =>
      obtain ⟨v, hseen, h⟩ := bind_eq_ok.mp h
      cases h
      obtain ⟨n, hmeans, htile⟩ := seen_eq_ok.mp hseen
      exact .copyFrom hmeans htile
  | copyTo =>
      obtain ⟨v, hheld, h⟩ := bind_eq_ok.mp h
      obtain ⟨n, hmeans, rfl⟩ := put_eq_ok.mp h
      exact .copyTo (held_eq_ok.mp hheld) hmeans
  | add =>
      obtain ⟨v, n, w, x, hacc, hmeans, htile, hsum, rfl⟩ := combined_eq_ok.mp h
      obtain ⟨a, b, c, rfl, rfl, hc, rfl⟩ := sum_eq_ok.mp hsum
      exact .add hacc hmeans htile hc
  | subtract =>
      obtain ⟨v, n, w, x, hacc, hmeans, htile, hdiff, rfl⟩ := combined_eq_ok.mp h
      rcases difference_eq_ok.mp hdiff with ⟨a, b, c, rfl, rfl, hc, rfl⟩ | ⟨a, b, c, rfl, rfl, hc, rfl⟩
      · exact .subtract hacc hmeans htile hc
      · exact .subtractLetters hacc hmeans htile hc
  | bumpUp =>
      obtain ⟨n, a, c, hmeans, htile, hc, rfl⟩ := bumped_eq_ok.mp h
      exact .bumpUp hmeans htile hc
  | bumpDown =>
      obtain ⟨n, a, c, hmeans, htile, hc, rfl⟩ := bumped_eq_ok.mp h
      exact .bumpDown hmeans htile hc

theorem row_of_jump {condition : Condition}
    (h : cpu.effect (.jump condition d) pc size jumps = .ok (s, after)) :
    Row jumps size pc cpu (.jump condition d) s after := by
  obtain ⟨b, htaken, h⟩ := bind_eq_ok.mp h
  cases b with
  | true =>
      obtain ⟨t, hresolve, h⟩ := bind_eq_ok.mp h
      cases h
      obtain ⟨hnamed, hlt⟩ := Destination.resolve_eq_ok.mp hresolve
      cases condition with
      | always => exact .jump hnamed hlt
      | ifZero =>
          obtain ⟨v, hacc, hzero⟩ := (taken_eq_ok (by simp)).mp htaken
          obtain rfl : v = .int 0 := by simpa [satisfies] using hzero
          exact .jumpIfZero hacc hnamed hlt
      | ifNegative =>
          obtain ⟨v, hacc, hsign⟩ := (taken_eq_ok (by simp)).mp htaken
          cases v with
          | letter c => cases hsign
          | int a =>
              have hneg : a.toInt < 0 := by simpa [satisfies] using hsign
              exact .jumpIfNegative hacc hneg hnamed hlt
  | false =>
      cases h
      cases condition with
      | always => cases htaken
      | ifZero =>
          obtain ⟨v, hacc, hzero⟩ := (taken_eq_ok (by simp)).mp htaken
          have hne : v ≠ .int 0 := by simpa [satisfies] using hzero
          exact .passIfZero hacc hne
      | ifNegative =>
          obtain ⟨v, hacc, hsign⟩ := (taken_eq_ok (by simp)).mp htaken
          cases v with
          | letter c => cases hsign
          | int a =>
              have hnonneg : 0 ≤ a.toInt := by simpa [satisfies] using hsign
              exact .passIfNegative hacc hnonneg

theorem row_of_effect (h : cpu.effect i pc size jumps = .ok (s, after)) :
    Row jumps size pc cpu i s after := by
  cases i with
  | noOp =>
      cases h
      exact .noOp
  | moveFromInbox =>
      simp only [effect] at h
      split at h
      · cases h
      · next hinbox =>
        cases h
        exact .moveFromInbox hinbox
  | moveToOutbox =>
      obtain ⟨v, hheld, h⟩ := bind_eq_ok.mp h
      cases h
      exact .moveToOutbox (held_eq_ok.mp hheld)
  | onTile action t =>
      obtain ⟨worked, hwork, h⟩ := bind_eq_ok.mp h
      cases h
      exact row_of_worked hwork
  | jump condition d => exact row_of_jump h

theorem effect_of_worked {action : TileAction} (h : cpu.worked action t = .ok after) :
    cpu.effect (.onTile action t) pc size jumps = .ok (pc + 1, after) :=
  bind_eq_ok.mpr ⟨after, h, rfl⟩

theorem effect_of_taken {condition : Condition} (htaken : cpu.taken condition = .ok true)
    (hnamed : d.named? jumps = some s) (hlt : s < size) :
    cpu.effect (.jump condition d) pc size jumps = .ok (s, cpu) :=
  bind_eq_ok.mpr ⟨true, htaken,
    bind_eq_ok.mpr ⟨s, Destination.resolve_eq_ok.mpr ⟨hnamed, hlt⟩, rfl⟩⟩

theorem effect_of_passed {condition : Condition} (htaken : cpu.taken condition = .ok false) :
    cpu.effect (.jump condition d) pc size jumps = .ok (pc + 1, cpu) :=
  bind_eq_ok.mpr ⟨false, htaken, rfl⟩

theorem effect_of_row (h : Row jumps size pc cpu i s after) :
    cpu.effect i pc size jumps = .ok (s, after) := by
  cases h with
  | noOp => rfl
  | moveFromInbox hinbox => simp only [effect, hinbox]
  | moveToOutbox hacc => exact bind_eq_ok.mpr ⟨_, held_eq_ok.mpr hacc, rfl⟩
  | copyFrom hmeans htile =>
      have hseen := seen_eq_ok.mpr ⟨_, hmeans, htile⟩
      exact effect_of_worked (bind_eq_ok.mpr ⟨_, hseen, rfl⟩)
  | @copyTo t n v hacc hmeans =>
      have hput : cpu.put t v = .ok _ := put_eq_ok.mpr ⟨n, hmeans, rfl⟩
      exact effect_of_worked (bind_eq_ok.mpr ⟨_, held_eq_ok.mpr hacc, hput⟩)
  | add hacc hmeans htile hsum =>
      refine effect_of_worked (combined_eq_ok.mpr ⟨_, _, _, _, hacc, hmeans, htile, ?_, rfl⟩)
      exact sum_eq_ok.mpr ⟨_, _, _, rfl, rfl, hsum, rfl⟩
  | subtract hacc hmeans htile hdiff =>
      refine effect_of_worked (combined_eq_ok.mpr ⟨_, _, _, _, hacc, hmeans, htile, ?_, rfl⟩)
      exact difference_eq_ok.mpr (.inl ⟨_, _, _, rfl, rfl, hdiff, rfl⟩)
  | subtractLetters hacc hmeans htile hdiff =>
      refine effect_of_worked (combined_eq_ok.mpr ⟨_, _, _, _, hacc, hmeans, htile, ?_, rfl⟩)
      exact difference_eq_ok.mpr (.inr ⟨_, _, _, rfl, rfl, hdiff, rfl⟩)
  | bumpUp hmeans htile hsum =>
      exact effect_of_worked (bumped_eq_ok.mpr ⟨_, _, _, hmeans, htile, hsum, rfl⟩)
  | bumpDown hmeans htile hdiff =>
      exact effect_of_worked (bumped_eq_ok.mpr ⟨_, _, _, hmeans, htile, hdiff, rfl⟩)
  | jump hnamed hlt => exact effect_of_taken rfl hnamed hlt
  | jumpIfZero hacc hnamed hlt =>
      refine effect_of_taken ((taken_eq_ok (by simp)).mpr ⟨_, hacc, ?_⟩) hnamed hlt
      rfl
  | passIfZero hacc hne =>
      refine effect_of_passed ((taken_eq_ok (by simp)).mpr ⟨_, hacc, ?_⟩)
      simpa [satisfies] using hne
  | jumpIfNegative hacc hneg hnamed hlt =>
      refine effect_of_taken ((taken_eq_ok (by simp)).mpr ⟨_, hacc, ?_⟩) hnamed hlt
      simpa [satisfies] using hneg
  | passIfNegative hacc hnonneg =>
      refine effect_of_passed ((taken_eq_ok (by simp)).mpr ⟨_, hacc, ?_⟩)
      simpa [satisfies] using hnonneg

/-- **An instruction is carried out exactly as the table says.** -/
theorem effect_eq_ok : cpu.effect i pc size jumps = .ok (s, after) ↔
    Row jumps size pc cpu i s after :=
  ⟨row_of_effect, effect_of_row⟩

end Cpu

end Mailroom
