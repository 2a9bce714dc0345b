/-
Reading and writing reach the same tile.

Both look for the tile that the operand means, and if there is none, both fail and say the same
about it.  A value can be written on every tile that is found, but it can only be read from a
tile that is not empty, so whatever can be read can be overwritten.

What was written is what is read next, with one exception.  An operand in brackets may mean the
very tile that it points from.  Writing there redirects the pointer, and the next reading goes
where the new value points (`SelfPointing`).
-/
import Mailroom.Cpu.Lemmas
import Mailroom.Proofs.Memory

namespace Mailroom

namespace Memory

/-- The operand means the tile that it points from. -/
def SelfPointing (m : Memory) (t : Tile) : Prop :=
  t.indirect = true ∧ ∃ n, m.Names t.key n ∧ m.Means t n

variable {m m' : Memory} {key : TileRef} {t : Tile} {i n : Nat} {v w : Value} {e : Error}

/-! ### Failing -/

/-- What keeps a value from being written keeps it from being read. -/
theorem get_of_set_eq_error (h : m.set t v = .error e) : m.get t = .error e := by
  have hset : m.set t v = m.target t >>= fun n => .ok (m.write n v) := rfl
  have hget : m.get t = m.target t >>= m.fetch := rfl
  cases htarget : m.target t with
  | ok n =>
      rw [hset, htarget] at h
      cases h
  | error e' =>
      rw [hset, htarget] at h
      cases h
      rw [hget, htarget]
      rfl

/-! ### Reading what was written -/

/-- A key names the same tile as before, for writing moves no label. -/
theorem names_write : (m.write n v).Names key i ↔ m.Names key i := by
  constructor
  · rintro (_ | ⟨hname, hlabel⟩)
    · exact .number _
    · exact .label hname hlabel
  · rintro (_ | ⟨hname, hlabel⟩)
    · exact .number _
    · exact .label hname hlabel

/-- An operand that does not point from the tile it means still means it after the writing. -/
theorem Means.write (h : m.Means t n) (hself : ¬ m.SelfPointing t) (v : Value) :
    (m.write n v).Means t n := by
  have hmeans := h
  cases h with
  | direct hkey => exact .direct (names_write.mpr hkey)
  | @indirect key i n w hkey hi hw =>
      have hne : n ≠ i := by
        rintro rfl
        exact hself ⟨rfl, n, hkey, hmeans⟩
      refine .indirect (names_write.mpr hkey) ?_ hw
      rw [getElem?_write, if_neg hne, hi]

theorem get_write (h : m.Means t n) (hself : ¬ m.SelfPointing t) (v : Value) :
    (m.write n v).get t = .ok v := by
  refine get_eq_ok.mpr ⟨n, h.write hself v, ?_⟩
  rw [getElem?_write, if_pos rfl]

/-- After the pointer itself was overwritten, its new value is followed. -/
theorem get_write_of_selfPointing (h : m.Means t n) (hself : m.SelfPointing t) (v : Value) :
    (m.write n v).get t = pointer v >>= (m.write n v).fetch := by
  obtain ⟨key, indirect⟩ := t
  obtain ⟨rfl, i, hkey, hmeans⟩ := hself
  obtain rfl : n = i := h.unique hmeans
  have hget : (m.write n v).get ⟨key, true⟩ = ((m.write n v).resolve key >>= fun i =>
      (m.write n v).fetch i >>= pointer) >>= (m.write n v).fetch := rfl
  have hresolve : (m.write n v).resolve key = .ok n := resolve_eq_ok.mpr (names_write.mpr hkey)
  have hfetch : (m.write n v).fetch n = .ok v := by
    rw [fetch_eq_ok, getElem?_write, if_pos rfl]
  rw [hget, hresolve]
  show ((m.write n v).fetch n >>= pointer) >>= _ = _
  rw [hfetch]
  rfl

/-! ### Reading beside writing -/

/-- How reading through an operand and writing a value through it are tied together. -/
structure Accord (m : Memory) (t : Tile) (v : Value) : Prop where
  /-- Writing asks for nothing but a tile to write on. -/
  writable : (∃ m', m.set t v = .ok m') ↔ ∃ n, m.Means t n
  /-- The value is then on the tile that the operand means, and nothing else is changed. -/
  written : ∀ m', m.set t v = .ok m' → ∃ n, m.Means t n ∧ m'.tiles[n]? = some v ∧
    (∀ i, i ≠ n → m'.tiles[i]? = m.tiles[i]?) ∧ m'.labels = m.labels
  /-- If it fails, reading fails with the same error. -/
  refused : ∀ e, m.set t v = .error e → m.get t = .error e
  /-- A machine with this memory is then left as it is. -/
  untouched : ∀ e, m.set t v = .error e → ∀ cpu : Cpu,
    Cpu.store t v { cpu with memory := m } = .error (.memory e) { cpu with memory := m }
  /-- Reading asks for a tile and for something on it, which it answers. -/
  readable : ∀ w, m.get t = .ok w ↔ ∃ n, m.Means t n ∧ m.tiles[n]? = some w
  /-- The tile that is read is the one that is overwritten. -/
  overwritten : ∀ w, m.get t = .ok w →
    ∃ n, m.tiles[n]? = some w ∧ m.set t v = .ok { m with tiles := m.tiles.insert n v }
  /-- Reading again answers the value. -/
  reread : ∀ m', m.set t v = .ok m' → ¬ m.SelfPointing t → m'.get t = .ok v
  /-- A pointer that was overwritten itself leads where the value points. -/
  redirected : ∀ m', m.set t v = .ok m' → m.SelfPointing t → m'.get t = pointer v >>= m'.fetch

/-- **Reading and writing through an operand agree.** -/
theorem get_accords_with_set (m : Memory) (t : Tile) (v : Value) : Accord m t v where
  writable := by
    simp only [set_eq_ok]
    constructor
    · rintro ⟨_, n, hmeans, -⟩
      exact ⟨n, hmeans⟩
    · rintro ⟨n, hmeans⟩
      exact ⟨_, n, hmeans, rfl⟩
  written := by
    intro m' hset
    obtain ⟨n, hmeans, rfl⟩ := set_eq_ok.mp hset
    refine ⟨n, hmeans, ?_, ?_, rfl⟩
    · rw [getElem?_write, if_pos rfl]
    · intro i hne
      rw [getElem?_write, if_neg (Ne.symm hne)]
  refused _ := get_of_set_eq_error
  untouched := by
    intro e hset cpu
    rw [Cpu.store_run]
    simp only [hset]
  readable _ := get_eq_ok
  overwritten := by
    intro w hget
    obtain ⟨n, hmeans, hw⟩ := get_eq_ok.mp hget
    exact ⟨n, hw, set_eq_ok.mpr ⟨n, hmeans, rfl⟩⟩
  reread := by
    intro m' hset hself
    obtain ⟨n, hmeans, rfl⟩ := set_eq_ok.mp hset
    exact get_write hmeans hself v
  redirected := by
    intro m' hset hself
    obtain ⟨n, hmeans, rfl⟩ := set_eq_ok.mp hset
    exact get_write_of_selfPointing hmeans hself v

/-- The label `here` is on a tile that points to itself, and tile 4 points nowhere. -/
def circular : Memory where
  tiles := .ofList [(3, Value.int 3), (4, Value.letter 'Z'), (7, Value.letter 'A')]
  labels := .ofList [("here", 3)]

/-- What is read after 7 was written through `[here]` is not 7 but the letter on tile 7, and to
write through `[4]` is refused as reading is. -/
theorem circular_accords :
    (∃ m', circular.set ⟨.label "here", true⟩ (.int 7) = .ok m' ∧
      m'.get ⟨.label "here", true⟩ = .ok (.letter 'A')) ∧
    circular.set ⟨.index 4, true⟩ (.int 7) = .error (.indirectThroughLetter 'Z') ∧
    circular.get ⟨.index 4, true⟩ = .error (.indirectThroughLetter 'Z') := by
  have hself : circular.SelfPointing ⟨.label "here", true⟩ :=
    ⟨rfl, 3, .label (by decide) rfl, .indirect (.label (by decide) rfl) rfl (w := 3) rfl⟩
  have hset : circular.set ⟨.label "here", true⟩ (.int 7) = .ok _ := rfl
  have hrefused : circular.set ⟨.index 4, true⟩ (.int 7) = .error (.indirectThroughLetter 'Z') :=
    rfl
  refine ⟨⟨_, hset, ?_⟩, hrefused, (get_accords_with_set _ _ _).refused _ hrefused⟩
  rw [(get_accords_with_set circular ⟨.label "here", true⟩ (.int 7)).redirected _ hset hself]
  rfl

end Memory

end Mailroom
