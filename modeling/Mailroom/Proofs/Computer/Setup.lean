/-
What becomes of a computer that is prepared.

Preparing can go wrong in two places.  A layout that cannot be laid out is found before anything
is changed, and the computer stays as it was.  The further items are read only when the memory has
been exchanged already: if one of them spells no value, the computer is left with the memory of
the floor and with the inbox that it had before.  So preparing is not all or nothing
(`half_prepared`), and a failure leaves the computer as it was only if the layout is at fault or
the memory was that of the floor all the time.
-/
import Mailroom.Computer.Setup
import Mailroom.Proofs.Memory

namespace Mailroom

namespace Value

variable {s : String}

theorem ofSingle?_eq_none : ofSingle? s = none ↔ s.length ≠ 1 := by
  rw [ofSingle?, ← String.length_toList]
  split
  · next c hc => simp [hc]
  · next hno =>
    simp only [true_iff]
    intro hlength
    obtain ⟨c, hc⟩ := List.length_eq_one_iff.mp hlength
    exact hno c hc

/-- What is neither an integer nor a single character spells no value. -/
theorem read?_eq_none : read? s = none ↔ Numeral.signed? s = none ∧ s.length ≠ 1 := by
  unfold read?
  cases hsigned : Numeral.signed? s with
  | some n => simp
  | none => simp [ofSingle?_eq_none]

end Value

namespace Computer

/-- The first of the items that is neither an integer nor a single character. -/
def FirstMalformed (extra : List String) (s : String) : Prop :=
  ∃ before after, extra = before ++ s :: after ∧
    (Numeral.signed? s = none ∧ s.length ≠ 1) ∧ ∀ s' ∈ before, Value.read? s' ≠ none

variable {floor : Floor} {extra rest : List String} {items : List Value} {s t : String} {v : Value}

/-! ### Items -/

theorem readItems_cons_of_some (h : Value.read? s = some v) :
    readItems (s :: rest) = readItems rest >>= fun items => .ok (v :: items) := by
  rw [readItems, h]
  rfl

theorem readItems_cons_of_none (h : Value.read? s = none) :
    readItems (s :: rest) = .error ⟨s⟩ := by
  rw [readItems, h]

theorem firstMalformed_cons_of_some (h : Value.read? s = some v) :
    FirstMalformed (s :: rest) t ↔ FirstMalformed rest t := by
  constructor
  · intro ⟨before, after, hlist, ht, hbefore⟩
    cases before with
    | nil =>
        cases hlist
        rw [Value.read?_eq_none.mpr ht] at h
        cases h
    | cons s' before =>
        cases hlist
        exact ⟨before, after, rfl, ht, (List.forall_mem_cons.mp hbefore).2⟩
  · intro ⟨before, after, hlist, ht, hbefore⟩
    subst hlist
    exact ⟨s :: before, after, rfl, ht, List.forall_mem_cons.mpr ⟨by simp [h], hbefore⟩⟩

theorem firstMalformed_cons_of_none (h : Value.read? s = none) :
    FirstMalformed (s :: rest) t ↔ t = s := by
  constructor
  · intro ⟨before, after, hlist, ht, hbefore⟩
    cases before with
    | nil =>
        cases hlist
        rfl
    | cons s' before =>
        cases hlist
        exact absurd h (List.forall_mem_cons.mp hbefore).1
  · intro heq
    subst heq
    exact ⟨[], rest, rfl, Value.read?_eq_none.mp h, by simp⟩

/-- All items are read if each of them spells a value. -/
theorem readItems_eq_ok :
    readItems extra = .ok items ↔ extra.map Value.read? = items.map some := by
  induction extra generalizing items with
  | nil =>
      have hnil : readItems [] = .ok [] := rfl
      rw [hnil, Except.ok.injEq, List.map_nil, eq_comm, eq_comm (a := []), List.map_eq_nil_iff]
  | cons s rest ih =>
      rw [List.map_cons]
      cases hread : Value.read? s with
      | none =>
          rw [readItems_cons_of_none hread]
          cases items <;> simp
      | some v =>
          rw [readItems_cons_of_some hread, bind_eq_ok]
          simp only [ih]
          constructor
          · intro ⟨l, hl, hitems⟩
            cases hitems
            rw [hl, List.map_cons]
          · intro hitems
            cases items with
            | nil => cases hitems
            | cons w items =>
                obtain ⟨hw, hrest⟩ := List.cons.inj hitems
                cases hw
                exact ⟨items, hrest, rfl⟩

/-- The first one that spells none is refused. -/
theorem readItems_eq_error : readItems extra = .error ⟨t⟩ ↔ FirstMalformed extra t := by
  induction extra with
  | nil =>
      constructor
      · intro h
        cases h
      · intro ⟨before, after, hlist, _⟩
        simp at hlist
  | cons s rest ih =>
      cases hread : Value.read? s with
      | none =>
          rw [readItems_cons_of_none hread, firstMalformed_cons_of_none hread]
          simp [eq_comm]
      | some v =>
          rw [readItems_cons_of_some hread, firstMalformed_cons_of_some hread, ← ih]
          cases readItems rest with
          | error refusal => simp [bind, Except.bind]
          | ok items => simp [bind, Except.bind]

/-! ### Preparing -/

theorem prepare_run (floor : Floor) (extra : List String) (c : Computer) :
    (prepare floor extra).run c = match floor.memory with
      | .error cause => .error (.layout cause) c
      | .ok memory => match readItems extra with
        | .error refusal => .error (.item refusal) (c.setMemory memory)
        | .ok items => .ok () ((c.setMemory memory).setInbox (floor.inbox ++ items)) := by
  unfold prepare
  cases floor.memory with
  | error cause => rfl
  | ok memory => cases readItems extra <;> rfl

variable {c c' : Computer} {e : SetupError}

theorem prepare_eq_ok : (prepare floor extra).run c = .ok () c' ↔ ∃ memory items,
    floor.memory = .ok memory ∧ extra.map Value.read? = items.map some ∧
    c' = { c with cpu := { c.cpu with memory, inbox := floor.inbox ++ items } } := by
  simp only [prepare_run, ← readItems_eq_ok]
  cases floor.memory with
  | error cause => simp
  | ok memory =>
      cases readItems extra with
      | error refusal => simp
      | ok items => simp [setMemory, setInbox, eq_comm]

theorem prepare_eq_layout {cause : Memory.Error} :
    (prepare floor extra).run c = .error (.layout cause) c' ↔
      floor.memory = .error cause ∧ c' = c := by
  rw [prepare_run]
  cases floor.memory with
  | error cause' => simp [eq_comm]
  | ok memory => cases readItems extra <;> simp

theorem prepare_eq_item : (prepare floor extra).run c = .error (.item ⟨s⟩) c' ↔ ∃ memory,
    floor.memory = .ok memory ∧ FirstMalformed extra s ∧
    c' = { c with cpu := { c.cpu with memory } } := by
  simp only [prepare_run, ← readItems_eq_error]
  cases floor.memory with
  | error cause => simp
  | ok memory =>
      cases readItems extra with
      | error refusal => simp [setMemory, eq_comm]
      | ok items => simp

/-- What becomes of a computer that is prepared with a floor and further items. -/
structure Prepared (floor : Floor) (extra : List String) (c : Computer) : Prop where
  /-- If the floor can be laid out and all items are values, memory and inbox are exchanged and
  nothing else. -/
  done : ∀ c', (prepare floor extra).run c = .ok () c' ↔ ∃ memory items,
    floor.memory = .ok memory ∧ extra.map Value.read? = items.map some ∧
    c' = { c with cpu := { c.cpu with memory, inbox := floor.inbox ++ items } }
  /-- A layout that is refused leaves the computer as it was. -/
  unlaid : ∀ cause c', (prepare floor extra).run c = .error (.layout cause) c' ↔
    floor.memory = .error cause ∧ c' = c
  /-- An item that is refused leaves it with the memory of the floor, and nothing else is new. -/
  halfway : ∀ s c', (prepare floor extra).run c = .error (.item ⟨s⟩) c' ↔ ∃ memory,
    floor.memory = .ok memory ∧ FirstMalformed extra s ∧
    c' = { c with cpu := { c.cpu with memory } }
  /-- So a failure leaves the computer as it was only where the layout is at fault, or the memory
  was that of the floor already. -/
  unchanged : ∀ e c', (prepare floor extra).run c = .error e c' →
    (c' = c ↔ (∃ cause, e = .layout cause) ∨ floor.memory = .ok c.cpu.memory)

/-- **The memory is exchanged as soon as the floor is laid out, the inbox only when all items have
been read.** -/
theorem prepare_in_two_steps (floor : Floor) (extra : List String) (c : Computer) :
    Prepared floor extra c where
  done _ := prepare_eq_ok
  unlaid _ _ := prepare_eq_layout
  halfway _ _ := prepare_eq_item
  unchanged := by
    intro e c' h
    cases e with
    | layout cause =>
        obtain ⟨-, rfl⟩ := prepare_eq_layout.mp h
        simp
    | item refusal =>
        obtain ⟨memory, hmemory, -, rfl⟩ := prepare_eq_item.mp h
        rw [hmemory, Except.ok.injEq]
        constructor
        · intro heq
          exact .inr (congrArg (·.cpu.memory) heq)
        · intro hsame
          obtain ⟨cause, hcause⟩ | rfl := hsame
          · cases hcause
          · rfl

/-- A floor with a value on its first tile. -/
def furnished : Floor where
  values := .ofList [("0", Value.int 1)]

/-- A word is no value, and the computer that could not be prepared is left with the furniture. -/
theorem half_prepared : ¬ ((∃ c', (prepare furnished ["word"]).run {} = .ok () c') ∨
    ∃ e, (prepare furnished ["word"]).run {} = .error e {}) := by
  have hrun : (prepare furnished ["word"]).run {} = .error (.item ⟨"word"⟩) _ := rfl
  rw [hrun]
  intro h
  obtain ⟨c', hok⟩ | ⟨e, herror⟩ := h
  · cases hok
  · obtain ⟨-, hsame⟩ := EStateM.Result.error.inj herror
    have htile : some (Value.int 1) = none := congrArg (fun c => c.cpu.memory.tiles[0]?) hsame
    cases htile

end Computer

end Mailroom
