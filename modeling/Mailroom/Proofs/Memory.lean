/-
The tile that an operand means.

A key names a tile by its number or by a label, and an operand in brackets means the tile whose
number lies on the tile that its key names.  `Means` puts this as rules, which say with it when
there is such a tile at all.  There is never more than one (`Means.unique`).

Reading and writing come down to it: a value is read off the tile that the operand means
(`get_eq_ok`), and a value that is written changes this tile and no other (`set_eq_ok`).
-/
import Mailroom.Memory

namespace Mailroom

/-- Of two computations in a row both must succeed. -/
theorem bind_eq_ok {ε α β : Type} {r : Except ε α} {g : α → Except ε β} {b : β} :
    r >>= g = .ok b ↔ ∃ a, r = .ok a ∧ g a = .ok b := by
  cases r with
  | error e => simp [bind, Except.bind]
  | ok a => simp [bind, Except.bind]

namespace Memory

/-- The key names the tile.  A label that is a numeral names none. -/
inductive Names (m : Memory) : TileRef → Nat → Prop
  | number (n : Nat) : Names m (.index n) n
  | label {name : String} {n : Nat} (hname : Numeral.signed? name = none)
      (hlabel : m.labels[name]? = some n) : Names m (.label name) n

/-- The key names no tile, for this reason. -/
inductive Nameless (m : Memory) : TileRef → Error → Prop
  | numeral {name : String} {w : Int64} (hname : Numeral.signed? name = some w) :
      Nameless m (.label name) (.invalidTileIndex w)
  | unknown {name : String} (hname : Numeral.signed? name = none)
      (hlabel : m.labels[name]? = none) : Nameless m (.label name) (.unknownLabel name)

/-- The operand means the tile. -/
inductive Means (m : Memory) : Tile → Nat → Prop
  | direct {key : TileRef} {n : Nat} (hkey : m.Names key n) : Means m ⟨key, false⟩ n
  /-- What lies on the tile that is named must be the number of a tile. -/
  | indirect {key : TileRef} {i n : Nat} {w : Int64} (hkey : m.Names key i)
      (hi : m.tiles[i]? = some (.int w)) (hw : w.toInt = n) : Means m ⟨key, true⟩ n

/-- The memory with this value on a tile. -/
def write (m : Memory) (n : Nat) (v : Value) : Memory :=
  { m with tiles := m.tiles.insert n v }

variable {m m' : Memory} {key : TileRef} {t : Tile} {i n : Nat} {v : Value}

@[simp] theorem write_labels (m : Memory) (n : Nat) (v : Value) :
    (m.write n v).labels = m.labels := rfl

theorem getElem?_write (m : Memory) (n : Nat) (v : Value) (i : Nat) :
    (m.write n v).tiles[i]? = if n = i then some v else m.tiles[i]? := by
  simp only [write, Std.ExtTreeMap.getElem?_insert, Nat.compare_eq_eq]

theorem mem_write : i ∈ (m.write n v).tiles ↔ i = n ∨ i ∈ m.tiles := by
  rw [write, Std.ExtTreeMap.mem_insert, Nat.compare_eq_eq, eq_comm]

theorem size_write_le (m : Memory) (n : Nat) (v : Value) :
    (m.write n v).tiles.size ≤ m.tiles.size + 1 :=
  Std.ExtTreeMap.size_insert_le

/-- Writing on a full tile fills no other. -/
theorem size_write_of_mem (hn : n ∈ m.tiles) (v : Value) :
    (m.write n v).tiles.size = m.tiles.size := by
  rw [write, Std.ExtTreeMap.size_insert, if_pos (Std.ExtTreeMap.mem_iff_contains.mp hn)]

/-! ### Looking a tile up -/

theorem resolve_eq_ok : m.resolve key = .ok n ↔ m.Names key n := by
  constructor
  · intro h
    cases key with
    | index i =>
        cases h
        exact .number _
    | label name =>
        simp only [resolve] at h
        split at h
        · cases h
        · next hname =>
          split at h
          · next hlabel =>
            cases h
            exact .label hname hlabel
          · cases h
  · intro h
    cases h with
    | number => rfl
    | label hname hlabel => simp only [resolve, hname, hlabel]

theorem resolve_eq_error {e : Error} : m.resolve key = .error e ↔ m.Nameless key e := by
  constructor
  · intro h
    cases key with
    | index i => cases h
    | label name =>
        simp only [resolve] at h
        split at h
        · next hname =>
          cases h
          exact .numeral hname
        · next hname =>
          split at h
          · cases h
          · next hlabel =>
            cases h
            exact .unknown hname hlabel
  · intro h
    cases h with
    | numeral hname => simp only [resolve, hname]
    | unknown hname hlabel => simp only [resolve, hname, hlabel]

theorem fetch_eq_ok : m.fetch n = .ok v ↔ m.tiles[n]? = some v := by
  unfold fetch
  cases m.tiles[n]? <;> simp

theorem pointer_eq_ok : pointer v = .ok n ↔ ∃ w, v = .int w ∧ w.toInt = n := by
  cases v with
  | letter c => simp [pointer]
  | int w =>
      simp only [pointer, Value.int.injEq, exists_eq_left']
      split
      · next hneg =>
        simp only [reduceCtorEq, false_iff]
        omega
      · next hnonneg =>
        rw [Except.ok.injEq]
        omega

/-- The tile that is looked up is the one that the operand means. -/
theorem target_eq_ok : m.target t = .ok n ↔ m.Means t n := by
  obtain ⟨key, indirect⟩ := t
  have htarget : m.target ⟨key, indirect⟩ = m.resolve key >>= fun i =>
      if indirect then m.fetch i >>= pointer else .ok i := rfl
  rw [htarget]
  cases indirect with
  | false =>
      simp only [bind_eq_ok, resolve_eq_ok, Bool.false_eq_true, if_false, Except.ok.injEq,
        exists_eq_right]
      constructor
      · exact .direct
      · rintro (hkey | _)
        exact hkey
  | true =>
      simp only [bind_eq_ok, resolve_eq_ok, if_true, fetch_eq_ok, pointer_eq_ok]
      constructor
      · rintro ⟨i, hkey, v, hi, w, rfl, hw⟩
        exact .indirect hkey hi hw
      · rintro (_ | ⟨hkey, hi, hw⟩)
        exact ⟨_, hkey, _, hi, _, rfl, hw⟩

/-- An operand means one tile at most. -/
theorem Means.unique {k : Nat} (h : m.Means t n) (h' : m.Means t k) : n = k :=
  Except.ok.inj ((target_eq_ok.mpr h).symm.trans (target_eq_ok.mpr h'))

/-! ### Reading and writing -/

theorem get_eq_ok : m.get t = .ok v ↔ ∃ n, m.Means t n ∧ m.tiles[n]? = some v := by
  have hget : m.get t = m.target t >>= m.fetch := rfl
  simp only [hget, bind_eq_ok, target_eq_ok, fetch_eq_ok]

theorem set_eq_ok : m.set t v = .ok m' ↔ ∃ n, m.Means t n ∧ m' = m.write n v := by
  have hset : m.set t v = m.target t >>= fun n => .ok (m.write n v) := rfl
  simp only [hset, bind_eq_ok, target_eq_ok, Except.ok.injEq, @eq_comm _ m']

end Memory

end Mailroom
