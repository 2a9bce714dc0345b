/-
A layout determines the memory.

The labels of a layout are the labels of its memory.  Its values lie on the tiles that their keys
name, and a key may be a numeral, in any spelling, or a label, so that several keys may name the
same tile.  The keys are taken in ascending order and each writes over those before it: what lies
on a tile in the end is the value of the greatest key that names it.

A key that names no tile is refused, and the smallest such key decides what is said.

Both come from one walk over the entries (`lay`).  Writing moves no label, so all keys are
understood by the labels of the layout, whatever has been written before them.
-/
import Mailroom.Proofs.Memory

namespace Mailroom

namespace Memory

/-- The key of a value names the tile in a layout with these labels. -/
inductive KeyNames (labels : Std.ExtTreeMap String Nat) (key : String) : Nat → Prop
  | number {n : Nat} (hnumber : Numeral.unsigned? key = some n) : KeyNames labels key n
  | label {n : Nat} (hnumber : Numeral.unsigned? key = none)
      (hname : Numeral.signed? key = none) (hlabel : labels[key]? = some n) :
      KeyNames labels key n

/-- The key of a value names no tile in a layout with these labels, for this reason. -/
inductive KeyFails (labels : Std.ExtTreeMap String Nat) (key : String) : Error → Prop
  | numeral {w : Int64} (hnumber : Numeral.unsigned? key = none)
      (hname : Numeral.signed? key = some w) : KeyFails labels key (.invalidTileIndex w)
  | unknown (hnumber : Numeral.unsigned? key = none) (hname : Numeral.signed? key = none)
      (hlabel : labels[key]? = none) : KeyFails labels key (.unknownLabel key)

/-- Of the keys that name the tile this is the greatest. -/
structure Topmost (labels : Std.ExtTreeMap String Nat) (values : Std.ExtTreeMap String Value)
    (n : Nat) (key : String) : Prop where
  names : KeyNames labels key n
  greatest : ∀ other ∈ values, KeyNames labels other n → other ≤ key

variable {labels : Std.ExtTreeMap String Nat} {values : Std.ExtTreeMap String Value}
  {m m' : Memory} {entries : List (String × Value)} {key : String} {n : Nat} {v : Value}
  {e : Error}

/-! ### Maps with texts as keys -/

section Maps

variable {α : Type} {map : Std.ExtTreeMap String α} {before after : List (String × α)} {a : α}

theorem mem_of_getElem? (h : map[key]? = some a) : key ∈ map := by
  rw [Std.ExtTreeMap.mem_iff_isSome_getElem?, h]
  rfl

theorem mem_iff_exists_toList : key ∈ map ↔ ∃ a, (key, a) ∈ map.toList := by
  simp only [Std.ExtTreeMap.mem_iff_isSome_getElem?, Option.isSome_iff_exists,
    Std.ExtTreeMap.mem_toList_iff_getElem?_eq_some]

/-- The entries of a map come in the order of the code points of their keys. -/
theorem ascending_toList (map : Std.ExtTreeMap String α) :
    map.toList.Pairwise fun a b => a.1 < b.1 := by
  have hlt : ∀ a b : String, compare a b = .lt ↔ a < b := by
    intro a b
    exact compareOfLessAndEq_eq_lt
  simpa only [hlt] using map.ordered_keys_toList

/-- Where a map is cut at a key, the smaller keys stand before it and the greater ones behind. -/
theorem cut_toList (h : map.toList = before ++ (key, a) :: after) :
    (∀ entry ∈ before, entry.1 < key) ∧ ∀ entry ∈ after, key < entry.1 := by
  have hascending := ascending_toList map
  rw [h, List.pairwise_append, List.pairwise_cons] at hascending
  obtain ⟨-, ⟨hafter, -⟩, hbefore⟩ := hascending
  refine ⟨?_, hafter⟩
  intro entry hmem
  exact hbefore entry hmem _ List.mem_cons_self

end Maps

/-! ### Keys -/

theorem ofString_of_number (h : Numeral.unsigned? key = some n) :
    TileRef.ofString key = .index n := by
  rw [TileRef.ofString, h]

theorem ofString_of_not_number (h : Numeral.unsigned? key = none) :
    TileRef.ofString key = .label key := by
  rw [TileRef.ofString, h]

theorem names_ofString : m.Names (.ofString key) n ↔ KeyNames m.labels key n := by
  constructor
  · intro h
    cases hnumber : Numeral.unsigned? key with
    | some i =>
        rw [ofString_of_number hnumber] at h
        cases h
        exact .number hnumber
    | none =>
        rw [ofString_of_not_number hnumber] at h
        cases h with
        | label hname hlabel => exact .label hnumber hname hlabel
  · intro h
    cases h with
    | number hnumber =>
        rw [ofString_of_number hnumber]
        exact .number n
    | label hnumber hname hlabel =>
        rw [ofString_of_not_number hnumber]
        exact .label hname hlabel

theorem nameless_ofString : m.Nameless (.ofString key) e ↔ KeyFails m.labels key e := by
  constructor
  · intro h
    cases hnumber : Numeral.unsigned? key with
    | some i =>
        rw [ofString_of_number hnumber] at h
        cases h
    | none =>
        rw [ofString_of_not_number hnumber] at h
        cases h with
        | numeral hname => exact .numeral hnumber hname
        | unknown hname hlabel => exact .unknown hnumber hname hlabel
  · intro h
    cases h with
    | numeral hnumber hname =>
        rw [ofString_of_not_number hnumber]
        exact .numeral hname
    | unknown hnumber hname hlabel =>
        rw [ofString_of_not_number hnumber]
        exact .unknown hname hlabel

/-- A key names a tile if it is the number of one, or a label that is no numeral. -/
theorem exists_keyNames : (∃ n, KeyNames labels key n) ↔
    (∃ n, Numeral.unsigned? key = some n) ∨ key ∈ labels ∧ Numeral.signed? key = none := by
  constructor
  · intro ⟨n, h⟩
    cases h with
    | number hnumber => exact .inl ⟨n, hnumber⟩
    | label _ hname hlabel => exact .inr ⟨mem_of_getElem? hlabel, hname⟩
  · intro h
    cases hnumber : Numeral.unsigned? key with
    | some i => exact ⟨i, .number hnumber⟩
    | none =>
        obtain ⟨n, hn⟩ | ⟨hmem, hname⟩ := h
        · rw [hnumber] at hn
          cases hn
        · obtain ⟨n, hentry⟩ := mem_iff_exists_toList.mp hmem
          exact ⟨n, .label hnumber hname (Std.ExtTreeMap.mem_toList_iff_getElem?_eq_some.mp hentry)⟩

theorem set_key_eq_ok : m.set ⟨.ofString key, false⟩ v = .ok m' ↔
    ∃ n, KeyNames m.labels key n ∧ m' = m.write n v := by
  have hmeans : ∀ n, m.Means ⟨.ofString key, false⟩ n ↔ KeyNames m.labels key n := by
    intro n
    rw [← names_ofString]
    constructor
    · intro h
      cases h with
      | direct hkey => exact hkey
    · exact .direct
  simp only [set_eq_ok, hmeans]

theorem set_key_eq_error :
    m.set ⟨.ofString key, false⟩ v = .error e ↔ KeyFails m.labels key e := by
  have hset : m.set ⟨.ofString key, false⟩ v
      = m.resolve (.ofString key) >>= fun n => .ok (m.write n v) := by
    show (m.resolve (.ofString key) >>= fun i => .ok i) >>= _ = _
    cases m.resolve (.ofString key) <;> rfl
  rw [hset, ← nameless_ofString, ← resolve_eq_error]
  cases m.resolve (.ofString key) with
  | ok n => simp [bind, Except.bind]
  | error e' => simp [bind, Except.bind]

/-! ### The walk over the entries -/

/-- Puts the values on the tiles that their keys name, in order. -/
def lay (m : Memory) (entries : List (String × Value)) : Except Error Memory :=
  entries.foldlM (fun m entry => m.set ⟨.ofString entry.1, false⟩ entry.2) m

theorem ofLayout_eq_lay (labels : Std.ExtTreeMap String Nat)
    (values : Std.ExtTreeMap String Value) :
    ofLayout labels values = lay { labels } values.toList := rfl

theorem lay_cons (m : Memory) (key : String) (v : Value) (rest : List (String × Value)) :
    lay m ((key, v) :: rest) = m.set ⟨.ofString key, false⟩ v >>= fun m => lay m rest := by
  rw [lay, List.foldlM_cons]
  rfl

theorem lay_append (m : Memory) (front back : List (String × Value)) :
    lay m (front ++ back) = lay m front >>= fun m => lay m back :=
  List.foldlM_append

/-- The walk goes through if all keys name tiles. -/
theorem exists_lay_of_names (h : ∀ entry ∈ entries, ∃ n, KeyNames m.labels entry.1 n) :
    ∃ m', lay m entries = .ok m' := by
  induction entries generalizing m with
  | nil => exact ⟨m, rfl⟩
  | cons entry rest ih =>
      obtain ⟨key, v⟩ := entry
      obtain ⟨⟨n, hn⟩, hrest⟩ := List.forall_mem_cons.mp h
      obtain ⟨m', hm'⟩ := ih (m := m.write n v) hrest
      refine ⟨m', ?_⟩
      rw [lay_cons, bind_eq_ok]
      exact ⟨_, set_key_eq_ok.mpr ⟨n, hn, rfl⟩, hm'⟩

/-- What a walk that goes through leaves on a tile is the value of the last key that names it. -/
structure Laid (m : Memory) (entries : List (String × Value)) (m' : Memory) : Prop where
  labels : m'.labels = m.labels
  named : ∀ entry ∈ entries, ∃ n, KeyNames m.labels entry.1 n
  tile : ∀ n,
    (∃ before key v after, entries = before ++ (key, v) :: after ∧ KeyNames m.labels key n ∧
      (∀ entry ∈ after, ¬ KeyNames m.labels entry.1 n) ∧ m'.tiles[n]? = some v) ∨
    (∀ entry ∈ entries, ¬ KeyNames m.labels entry.1 n) ∧ m'.tiles[n]? = m.tiles[n]?

theorem KeyNames.unique {k : Nat} (h : KeyNames labels key n) (h' : KeyNames labels key k) :
    n = k := by
  have hnames := (names_ofString (m := { labels })).mpr h
  have hnames' := (names_ofString (m := { labels })).mpr h'
  exact Means.unique (.direct hnames) (.direct hnames')

/-- One more entry in front: its value is found unless a later key names the same tile. -/
theorem Laid.cons (hn : KeyNames m.labels key n) (h : Laid (m.write n v) entries m') :
    Laid m ((key, v) :: entries) m' where
  labels := h.labels
  named := List.forall_mem_cons.mpr ⟨⟨n, hn⟩, h.named⟩
  tile := by
    intro i
    rcases h.tile i with ⟨before, key', v', after, rfl, hkey', hafter, htile⟩ | ⟨hnone, htile⟩
    · exact .inl ⟨(key, v) :: before, key', v', after, rfl, hkey', hafter, htile⟩
    · rw [getElem?_write] at htile
      by_cases hi : n = i
      · subst hi
        rw [if_pos rfl] at htile
        exact .inl ⟨[], key, v, entries, rfl, hn, hnone, htile⟩
      · rw [if_neg hi] at htile
        exact .inr ⟨List.forall_mem_cons.mpr ⟨fun hkey => hi (hn.unique hkey), hnone⟩, htile⟩

theorem laid_of_lay (h : lay m entries = .ok m') : Laid m entries m' := by
  induction entries generalizing m with
  | nil =>
      cases h
      exact ⟨rfl, by simp, fun n => .inr ⟨by simp, rfl⟩⟩
  | cons entry rest ih =>
      obtain ⟨key, v⟩ := entry
      rw [lay_cons, bind_eq_ok] at h
      obtain ⟨m₁, hset, hrest⟩ := h
      obtain ⟨n, hn, rfl⟩ := set_key_eq_ok.mp hset
      exact .cons hn (ih hrest)

/-- A walk that fails has met a key that names no tile, behind keys that all name one. -/
theorem fails_of_lay (h : lay m entries = .error e) :
    ∃ before key v after, entries = before ++ (key, v) :: after ∧
      (∀ entry ∈ before, ∃ n, KeyNames m.labels entry.1 n) ∧ KeyFails m.labels key e := by
  induction entries generalizing m with
  | nil => cases h
  | cons entry rest ih =>
      obtain ⟨key, v⟩ := entry
      rw [lay_cons] at h
      cases hset : m.set ⟨.ofString key, false⟩ v with
      | error e' =>
          rw [hset] at h
          cases h
          exact ⟨[], key, v, rest, rfl, by simp, set_key_eq_error.mp hset⟩
      | ok m₁ =>
          rw [hset] at h
          obtain ⟨n, hn, rfl⟩ := set_key_eq_ok.mp hset
          obtain ⟨before, key', v', after, rfl, hbefore, hfails⟩ := ih h
          exact ⟨(key, v) :: before, key', v', after, rfl,
            List.forall_mem_cons.mpr ⟨⟨n, hn⟩, hbefore⟩, hfails⟩

theorem lay_eq_error : lay m entries = .error e ↔
    ∃ before key v after, entries = before ++ (key, v) :: after ∧
      (∀ entry ∈ before, ∃ n, KeyNames m.labels entry.1 n) ∧ KeyFails m.labels key e := by
  constructor
  · exact fails_of_lay
  · intro ⟨before, key, v, after, hlist, hbefore, hfails⟩
    subst hlist
    obtain ⟨m₁, hm₁⟩ := exists_lay_of_names hbefore
    have hset : m₁.set ⟨.ofString key, false⟩ v = .error e := by
      rw [set_key_eq_error, (laid_of_lay hm₁).labels]
      exact hfails
    rw [lay_append, hm₁]
    show lay m₁ ((key, v) :: after) = .error e
    rw [lay_cons, hset]
    rfl

/-! ### The greatest key -/

/-- The last key that names a tile is the greatest one. -/
theorem topmost_of_last {before after : List (String × Value)}
    (h : values.toList = before ++ (key, v) :: after) (hkey : KeyNames labels key n)
    (hafter : ∀ entry ∈ after, ¬ KeyNames labels entry.1 n) : Topmost labels values n key where
  names := hkey
  greatest := by
    intro other hother hnames
    obtain ⟨hsmaller, -⟩ := cut_toList h
    obtain ⟨w, hw⟩ := mem_iff_exists_toList.mp hother
    rw [h] at hw
    rcases List.mem_append.mp hw with hmem | hmem
    · exact String.not_lt.mp fun hlt => String.lt_asymm hlt (hsmaller _ hmem)
    · rcases List.mem_cons.mp hmem with heq | hmem
      · cases heq
        exact String.le_refl _
      · exact absurd hnames (hafter _ hmem)

theorem Topmost.unique {other : String} (h : Topmost labels values n key) (hkey : key ∈ values)
    (h' : Topmost labels values n other) (hother : other ∈ values) : key = other :=
  String.le_antisymm (h'.greatest key hkey h.names) (h.greatest other hother h'.names)

/-! ### Layouts -/

theorem labels_of_layout (h : ofLayout labels values = .ok m) : m.labels = labels :=
  (laid_of_lay h).labels

/-- A tile is as its greatest key says, and empty without one. -/
theorem tile_of_layout (h : ofLayout labels values = .ok m) (n : Nat) :
    (∃ key v, values[key]? = some v ∧ Topmost labels values n key ∧ m.tiles[n]? = some v) ∨
    (∀ key ∈ values, ¬ KeyNames labels key n) ∧ m.tiles[n]? = none := by
  obtain ⟨before, key, v, after, hlist, hkey, hafter, htile⟩ | ⟨hnone, htile⟩ :=
    (laid_of_lay h).tile n
  · have hmem : (key, v) ∈ values.toList := by simp [hlist]
    exact .inl ⟨key, v, Std.ExtTreeMap.mem_toList_iff_getElem?_eq_some.mp hmem,
      topmost_of_last hlist hkey hafter, htile⟩
  · refine .inr ⟨?_, htile⟩
    intro key hkey
    obtain ⟨v, hv⟩ := mem_iff_exists_toList.mp hkey
    exact hnone (key, v) hv

theorem getElem?_layout_eq_some (h : ofLayout labels values = .ok m) :
    m.tiles[n]? = some v ↔ ∃ key, values[key]? = some v ∧ Topmost labels values n key := by
  obtain ⟨key, w, hvalue, htop, htile⟩ | ⟨hnone, htile⟩ := tile_of_layout h n
  · rw [htile]
    constructor
    · intro heq
      exact ⟨key, hvalue.trans heq, htop⟩
    · intro ⟨other, hother, htop'⟩
      obtain rfl := htop.unique (mem_of_getElem? hvalue) htop' (mem_of_getElem? hother)
      exact hvalue.symm.trans hother
  · simp only [htile, reduceCtorEq, false_iff]
    intro ⟨key, hvalue, htop⟩
    exact hnone key (mem_of_getElem? hvalue) htop.names

theorem getElem?_layout_eq_none (h : ofLayout labels values = .ok m) :
    m.tiles[n]? = none ↔ ∀ key ∈ values, ¬ KeyNames labels key n := by
  obtain ⟨key, w, hvalue, htop, htile⟩ | ⟨hnone, htile⟩ := tile_of_layout h n
  · simp only [htile, reduceCtorEq, false_iff]
    intro hnone
    exact hnone key (mem_of_getElem? hvalue) htop.names
  · simp only [htile, true_iff]
    exact hnone

/-- A layout is accepted if all its keys name tiles. -/
theorem exists_ofLayout : (∃ m, ofLayout labels values = .ok m) ↔
    ∀ key ∈ values, ∃ n, KeyNames labels key n := by
  constructor
  · intro ⟨m, hm⟩ key hkey
    obtain ⟨v, hv⟩ := mem_iff_exists_toList.mp hkey
    exact (laid_of_lay hm).named (key, v) hv
  · intro h
    refine exists_lay_of_names ?_
    intro entry hmem
    exact h entry.1 (mem_iff_exists_toList.mpr ⟨entry.2, hmem⟩)

theorem ofLayout_eq_error : ofLayout labels values = .error e ↔
    ∃ key ∈ values, KeyFails labels key e ∧
      ∀ other ∈ values, other < key → ∃ n, KeyNames labels other n := by
  rw [ofLayout_eq_lay, lay_eq_error]
  constructor
  · intro ⟨before, key, v, after, hlist, hbefore, hfails⟩
    obtain ⟨-, hgreater⟩ := cut_toList hlist
    refine ⟨key, mem_iff_exists_toList.mpr ⟨v, by simp [hlist]⟩, hfails, ?_⟩
    intro other hother hlt
    obtain ⟨w, hw⟩ := mem_iff_exists_toList.mp hother
    rw [hlist, List.mem_append, List.mem_cons] at hw
    rcases hw with hmem | heq | hmem
    · exact hbefore _ hmem
    · cases heq
      exact absurd hlt (String.lt_irrefl _)
    · exact absurd (hgreater _ hmem) (String.lt_asymm hlt)
  · intro ⟨key, hkey, hfails, hsmaller⟩
    obtain ⟨v, hv⟩ := mem_iff_exists_toList.mp hkey
    obtain ⟨before, after, hlist⟩ := List.append_of_mem hv
    obtain ⟨hbefore, -⟩ := cut_toList hlist
    refine ⟨before, key, v, after, hlist, ?_, hfails⟩
    intro entry hmem
    have hentry : entry.1 ∈ values := mem_iff_exists_toList.mpr ⟨entry.2, by simp [hlist, hmem]⟩
    exact hsmaller entry.1 hentry (hbefore entry hmem)

/-- What becomes of a layout. -/
structure LaidOut (labels : Std.ExtTreeMap String Nat) (values : Std.ExtTreeMap String Value) :
    Prop where
  /-- It is accepted if every key of a value is the number of a tile, or a label of the layout
  that is no numeral. -/
  accepted : (∃ m, ofLayout labels values = .ok m) ↔ ∀ key ∈ values,
    (∃ n, Numeral.unsigned? key = some n) ∨ key ∈ labels ∧ Numeral.signed? key = none
  /-- The labels are then those of the layout. -/
  labels_eq : ∀ m, ofLayout labels values = .ok m → m.labels = labels
  /-- A tile holds the value of the greatest key that names it. -/
  full : ∀ m, ofLayout labels values = .ok m → ∀ n v, m.tiles[n]? = some v ↔
    ∃ key, values[key]? = some v ∧ Topmost labels values n key
  /-- It is empty if there is no such key. -/
  empty : ∀ m, ofLayout labels values = .ok m → ∀ n, m.tiles[n]? = none ↔
    ∀ key ∈ values, ¬ KeyNames labels key n
  /-- It is refused for the smallest key that names no tile. -/
  refused : ∀ e, ofLayout labels values = .error e ↔ ∃ key ∈ values, KeyFails labels key e ∧
    ∀ other ∈ values, other < key → ∃ n, KeyNames labels other n

/-- **A layout determines the memory**, and what is said where it gives none. -/
theorem layout_determines_memory (labels : Std.ExtTreeMap String Nat)
    (values : Std.ExtTreeMap String Value) : LaidOut labels values where
  accepted := by
    rw [exists_ofLayout]
    simp only [exists_keyNames]
  labels_eq _ := labels_of_layout
  full _ hm _ _ := getElem?_layout_eq_some hm
  empty _ hm _ := getElem?_layout_eq_none hm
  refused _ := ofLayout_eq_error

/-- Three keys for tile 1, of which the label is the greatest. -/
example : (ofLayout (.ofList [("A", 1)])
    (.ofList [("A", Value.letter 'z'), ("+1", .int 4), ("01", .int 5)])).map (·.tiles[1]?)
      = .ok (some (.letter 'z')) := rfl

/-- Two keys that name no tile, of which the numeral is the smaller one. -/
example : ofLayout (.ofList [("A", 1)])
    (.ofList [("B", Value.int 4), ("A", .int 5), ("-2", .int 6)])
      = .error (.invalidTileIndex (-2)) := rfl

end Memory

end Mailroom
