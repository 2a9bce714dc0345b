/-
Labels as other names of tiles.

A label stays on the tile it was put on until it is put on another one.  Which tile that is was
settled when the label was put there: a label that was put on the tile of another label does not
follow it afterwards.  Values that are written or cleared leave all labels in place.

So after any calls a label is on the tile it was put on last, or, if it never was put anywhere, on
the tile that the layout gave it.  What one call does to the labels is said once (`labels_after`);
the rest is an induction over the calls.

A label that is a numeral is kept like any other and is listed with its tile, but it cannot be used
as a name, because a numeral never means a label.
-/
import Mailroom.Proofs.Memory.Layout

namespace Mailroom

namespace Memory

/-! ### Calls -/

/-- What a memory can be told to do. -/
inductive Call where
  | label (key : TileRef) (name : String)
  | set (t : Tile) (v : Value)
  | clear (key : TileRef)

/-- The memory that the call makes of this one, or why it makes none. -/
def Call.run (m : Memory) : Call → Except Error Memory
  | .label key name => m.labelTile key name
  | .set t v => m.set t v
  | .clear key => m.clear key >>= fun answer => .ok answer.2

/-- The memory after a call; one that fails changes nothing. -/
def after (m : Memory) (c : Call) : Memory :=
  match c.run m with
  | .ok m' => m'
  | .error _ => m

/-- The memory after some calls. -/
def replay (m : Memory) (calls : List Call) : Memory :=
  calls.foldl after m

/-- The call puts the label on the tile, which is the one that its key is found to name. -/
inductive Binds (m : Memory) (name : String) : Call → Nat → Prop
  | label {key : TileRef} {n : Nat} (hkey : m.resolve key = .ok n) :
      Binds m name (.label key name) n

/-- No call puts the label on a tile. -/
inductive NeverBound (name : String) : Memory → List Call → Prop
  | nil {m : Memory} : NeverBound name m []
  | cons {m : Memory} {c : Call} {rest : List Call} (hc : ∀ n, ¬ m.Binds name c n)
      (hrest : NeverBound name (m.after c) rest) : NeverBound name m (c :: rest)

/-- The last call that puts the label on a tile puts it on this one. -/
inductive LastBound (name : String) (n : Nat) : Memory → List Call → Prop
  | here {m : Memory} {c : Call} {rest : List Call} (hc : m.Binds name c n)
      (hrest : NeverBound name (m.after c) rest) : LastBound name n m (c :: rest)
  | there {m : Memory} {c : Call} {rest : List Call}
      (hrest : LastBound name n (m.after c) rest) : LastBound name n m (c :: rest)

/-- The memory with the label on this tile. -/
def attach (m : Memory) (name : String) (n : Nat) : Memory :=
  { m with labels := m.labels.insert name n }

variable {labels : Std.ExtTreeMap String Nat} {values : Std.ExtTreeMap String Value}
  {m m' : Memory} {c : Call} {calls : List Call} {key : TileRef} {name other : String} {i n : Nat}
  {v : Value} {e : Error}

/-! ### One call -/

theorem labelTile_eq_ok :
    m.labelTile key name = .ok m' ↔ ∃ n, m.resolve key = .ok n ∧ m' = m.attach name n := by
  have hlabel : m.labelTile key name = m.resolve key >>= fun n => .ok (m.attach name n) := rfl
  simp only [hlabel, bind_eq_ok, Except.ok.injEq, @eq_comm _ m']

theorem clear_eq_ok {old : Option Value} : m.clear key = .ok (old, m') ↔
    ∃ n, m.resolve key = .ok n ∧ old = m.tiles[n]? ∧
      m' = { m with tiles := m.tiles.erase n } := by
  have hclear : m.clear key = m.resolve key >>= fun n =>
      .ok (m.tiles[n]?, { m with tiles := m.tiles.erase n }) := rfl
  simp only [hclear, bind_eq_ok, Except.ok.injEq, Prod.mk.injEq,
    @eq_comm _ old, @eq_comm _ m']

theorem labels_of_set {t : Tile} (h : m.set t v = .ok m') : m'.labels = m.labels := by
  obtain ⟨n, -, rfl⟩ := set_eq_ok.mp h
  rfl

theorem labels_of_clear {old : Option Value} (h : m.clear key = .ok (old, m')) :
    m'.labels = m.labels := by
  obtain ⟨n, -, -, rfl⟩ := clear_eq_ok.mp h
  rfl

theorem after_of_ok (h : c.run m = .ok m') : m.after c = m' := by
  rw [after, h]

theorem after_of_error (h : c.run m = .error e) : m.after c = m := by
  rw [after, h]

/-- A call puts one label on a tile, or it leaves all labels where they are. -/
theorem labels_after (m : Memory) (c : Call) :
    (∃ name n, m.Binds name c n ∧ (m.after c).labels = m.labels.insert name n) ∨
    (∀ name n, ¬ m.Binds name c n) ∧ (m.after c).labels = m.labels := by
  cases hrun : c.run m with
  | error e =>
      refine .inr ⟨?_, by rw [after_of_error hrun]⟩
      intro name n hbinds
      obtain ⟨hkey⟩ := hbinds
      cases (labelTile_eq_ok.mpr ⟨n, hkey, rfl⟩).symm.trans hrun
  | ok m' =>
      rw [after_of_ok hrun]
      cases c with
      | label key name =>
          obtain ⟨n, hkey, rfl⟩ := labelTile_eq_ok.mp hrun
          exact .inl ⟨name, n, .label hkey, rfl⟩
      | set t v =>
          refine .inr ⟨?_, labels_of_set hrun⟩
          intro name n hbinds
          cases hbinds
      | clear key =>
          obtain ⟨⟨old, cleared⟩, hclear, heq⟩ := bind_eq_ok.mp hrun
          cases heq
          refine .inr ⟨?_, labels_of_clear hclear⟩
          intro name n hbinds
          cases hbinds

/-- Only a call that puts a label somewhere changes the labels. -/
theorem labels_after_of_ne (h : ∀ key name, c ≠ .label key name) :
    (m.after c).labels = m.labels := by
  rcases labels_after m c with ⟨name, n, hbinds, -⟩ | ⟨-, hlabels⟩
  · obtain ⟨-⟩ := hbinds
    exact absurd rfl (h _ name)
  · exact hlabels

theorem Binds.unique {k : Nat} (h : m.Binds name c n) (h' : m.Binds other c k) :
    name = other ∧ n = k := by
  obtain ⟨hkey⟩ := h
  obtain ⟨hkey'⟩ := h'
  exact ⟨rfl, Except.ok.inj (hkey.symm.trans hkey')⟩

theorem not_binds_of_ne (h : other ≠ name) : ¬ m.Binds name (.label key other) n := by
  intro hbinds
  cases hbinds
  exact h rfl

theorem getElem?_after_of_binds (h : m.Binds name c n) : (m.after c).labels[name]? = some n := by
  rcases labels_after m c with ⟨other, k, hbinds, hlabels⟩ | ⟨hnone, -⟩
  · obtain ⟨rfl, rfl⟩ := h.unique hbinds
    rw [hlabels, Std.ExtTreeMap.getElem?_insert_self]
  · exact absurd h (hnone name n)

theorem getElem?_after_of_not_binds (h : ∀ n, ¬ m.Binds name c n) :
    (m.after c).labels[name]? = m.labels[name]? := by
  rcases labels_after m c with ⟨other, k, hbinds, hlabels⟩ | ⟨-, hlabels⟩
  · have hne : other ≠ name := by
      intro heq
      subst heq
      exact h k hbinds
    simp only [hlabels, Std.ExtTreeMap.getElem?_insert, Std.compare_eq_iff_eq, if_neg hne]
  · rw [hlabels]

/-! ### Many calls -/

theorem replay_cons (m : Memory) (c : Call) (rest : List Call) :
    m.replay (c :: rest) = (m.after c).replay rest := rfl

theorem NeverBound.getElem?_replay (h : NeverBound name m calls) :
    (m.replay calls).labels[name]? = m.labels[name]? := by
  induction h with
  | nil => rfl
  | cons hc _ ih => rw [replay_cons, ih, getElem?_after_of_not_binds hc]

theorem LastBound.getElem?_replay (h : LastBound name n m calls) :
    (m.replay calls).labels[name]? = some n := by
  induction h with
  | here hc hrest => rw [replay_cons, hrest.getElem?_replay, getElem?_after_of_binds hc]
  | there _ ih => exact ih

theorem neverBound_or_lastBound (name : String) (m : Memory) (calls : List Call) :
    NeverBound name m calls ∨ ∃ n, LastBound name n m calls := by
  induction calls generalizing m with
  | nil => exact .inl .nil
  | cons c rest ih =>
      rcases ih (m.after c) with hrest | ⟨n, hrest⟩
      · by_cases hc : ∃ n, m.Binds name c n
        · obtain ⟨n, hn⟩ := hc
          exact .inr ⟨n, .here hn hrest⟩
        · exact .inl (.cons (fun n hn => hc ⟨n, hn⟩) hrest)
      · exact .inr ⟨n, .there hrest⟩

/-- A label is on the tile it was put on last, or else where it was before. -/
theorem getElem?_replay_eq_some : (m.replay calls).labels[name]? = some n ↔
    LastBound name n m calls ∨ NeverBound name m calls ∧ m.labels[name]? = some n := by
  constructor
  · intro h
    rcases neverBound_or_lastBound name m calls with hnever | ⟨k, hlast⟩
    · exact .inr ⟨hnever, hnever.getElem?_replay ▸ h⟩
    · obtain rfl : k = n := Option.some.inj (hlast.getElem?_replay.symm.trans h)
      exact .inl hlast
  · intro h
    rcases h with hlast | ⟨hnever, hlabel⟩
    · exact hlast.getElem?_replay
    · rw [hnever.getElem?_replay, hlabel]

theorem getElem?_replay_eq_none : (m.replay calls).labels[name]? = none ↔
    NeverBound name m calls ∧ m.labels[name]? = none := by
  constructor
  · intro h
    rcases neverBound_or_lastBound name m calls with hnever | ⟨k, hlast⟩
    · exact ⟨hnever, hnever.getElem?_replay ▸ h⟩
    · cases hlast.getElem?_replay.symm.trans h
  · intro ⟨hnever, hlabel⟩
    rw [hnever.getElem?_replay, hlabel]

/-! ### Looking labels up -/

theorem resolve_label_eq_ok (hname : Numeral.signed? name = none) :
    m.resolve (.label name) = .ok n ↔ m.labels[name]? = some n := by
  rw [resolve_eq_ok]
  constructor
  · intro h
    obtain _ | ⟨-, hlabel⟩ := h
    exact hlabel
  · exact .label hname

theorem resolve_label_eq_error (hname : Numeral.signed? name = none) :
    m.resolve (.label name) = .error e ↔ m.labels[name]? = none ∧ e = .unknownLabel name := by
  rw [resolve_eq_error]
  constructor
  · intro h
    obtain hnumeral | ⟨-, hlabel⟩ := h
    · rw [hname] at hnumeral
      cases hnumeral
    · exact ⟨hlabel, rfl⟩
  · intro ⟨hlabel, he⟩
    subst he
    exact .unknown hname hlabel

/-- Whether a label can be used does not depend on the memory, only where it is. -/
theorem resolve_label_congr (h : m'.labels[name]? = m.labels[name]?) :
    m'.resolve (.label name) = m.resolve (.label name) := by
  simp only [resolve, h]

theorem mem_labelsOf : name ∈ m.labelsOf n ↔ m.labels[name]? = some n := by
  simp only [labelsOf, List.mem_map, List.mem_filter, beq_iff_eq,
    ← Std.ExtTreeMap.mem_toList_iff_getElem?_eq_some]
  constructor
  · intro ⟨entry, ⟨hmem, hn⟩, hname⟩
    rw [← hname, ← hn]
    exact hmem
  · intro h
    exact ⟨(name, n), ⟨h, rfl⟩, rfl⟩

theorem ascending_labelsOf (m : Memory) (n : Nat) : (m.labelsOf n).Pairwise (· < ·) := by
  have hlabels := (ascending_toList m.labels).filter fun entry => entry.2 == n
  exact List.pairwise_map.mpr hlabels

/-! ### Aliases -/

/-- What a memory does with a key depends on nothing but the tile that the key is found to name. -/
theorem acts_congr {other : TileRef} (h : m.resolve key = m.resolve other) :
    (∀ indirect, m.get ⟨key, indirect⟩ = m.get ⟨other, indirect⟩) ∧
    (∀ indirect v, m.set ⟨key, indirect⟩ v = m.set ⟨other, indirect⟩ v) ∧
    m.clear key = m.clear other ∧
    ∀ name, m.labelTile key name = m.labelTile other name := by
  have htarget : ∀ indirect, m.target ⟨key, indirect⟩ = m.target ⟨other, indirect⟩ := by
    intro indirect
    simp only [target, h]
  refine ⟨?_, ?_, ?_, ?_⟩
  · intro indirect
    simp only [get, htarget]
  · intro indirect v
    simp only [set, htarget]
  · simp only [clear, h]
  · intro name
    simp only [labelTile, h]

/-- How the labels of a layout stand in the memory `m` that the calls have made of it. -/
structure Aliased (labels : Std.ExtTreeMap String Nat) (start : Memory) (calls : List Call)
    (m : Memory) : Prop where
  /-- A label that is no numeral means the tile it was put on last, or else the one that the
  layout gives it. -/
  resolved : ∀ name n, Numeral.signed? name = none → (m.resolve (.label name) = .ok n ↔
    LastBound name n start calls ∨ NeverBound name start calls ∧ labels[name]? = some n)
  /-- It is unknown if it was never put on a tile. -/
  unknown : ∀ name e, Numeral.signed? name = none → (m.resolve (.label name) = .error e ↔
    NeverBound name start calls ∧ labels[name]? = none ∧ e = .unknownLabel name)
  /-- A label that is put on the tile of another one stays there, whatever becomes of the other. -/
  copied : ∀ first second n later, Numeral.signed? second = none →
    m.resolve (.label first) = .ok n →
    NeverBound second (m.after (.label (.label first) second)) later →
    ((m.after (.label (.label first) second)).replay later).resolve (.label second) = .ok n
  /-- Calls that put a label nowhere do not move it, whatever they do to labels on its tile. -/
  unmoved : ∀ name later, NeverBound name m later →
    (m.replay later).resolve (.label name) = m.resolve (.label name)
  /-- Writing and clearing move no label. -/
  kept : ∀ c, (∀ key name, c ≠ .label key name) → (m.after c).labels = m.labels
  /-- A label does what the number of its tile does. -/
  interchangeable : ∀ name n, m.resolve (.label name) = .ok n →
    (∀ indirect, m.get ⟨.label name, indirect⟩ = m.get ⟨.index n, indirect⟩) ∧
    (∀ indirect v, m.set ⟨.label name, indirect⟩ v = m.set ⟨.index n, indirect⟩ v) ∧
    m.clear (.label name) = m.clear (.index n) ∧
    ∀ other, m.labelTile (.label name) other = m.labelTile (.index n) other
  /-- The labels of a tile are listed once each, in the order of their code points. -/
  listed : ∀ n, (m.labelsOf n).Pairwise (· < ·) ∧ ∀ name, name ∈ m.labelsOf n ↔
    LastBound name n start calls ∨ NeverBound name start calls ∧ labels[name]? = some n

/-- **A label means the tile it was put on last**, after any calls to a memory that has been laid
out, be they successful or not. -/
theorem labels_are_static_aliases (h : ofLayout labels values = .ok m) (calls : List Call) :
    Aliased labels m calls (m.replay calls) where
  resolved := by
    intro name n hname
    rw [resolve_label_eq_ok hname, getElem?_replay_eq_some, labels_of_layout h]
  unknown := by
    intro name e hname
    rw [resolve_label_eq_error hname, getElem?_replay_eq_none, labels_of_layout h, and_assoc]
  copied := by
    intro first second n later hname hfirst hnever
    have hbinds : (m.replay calls).Binds second (.label (.label first) second) n :=
      .label hfirst
    rw [resolve_label_eq_ok hname, hnever.getElem?_replay, getElem?_after_of_binds hbinds]
  unmoved := by
    intro name later hnever
    exact resolve_label_congr hnever.getElem?_replay
  kept _ := labels_after_of_ne
  interchangeable := by
    intro name n hname
    have hsame : (m.replay calls).resolve (.label name) = (m.replay calls).resolve (.index n) :=
      hname
    exact acts_congr hsame
  listed := by
    intro n
    refine ⟨ascending_labelsOf _ n, ?_⟩
    intro name
    rw [mem_labelsOf, getElem?_replay_eq_some, labels_of_layout h]

/-- `y` is put on the tile of `x`, which moves on afterwards.  The last call fails, because a
numeral is no label. -/
def relabelling : List Call :=
  [.label (.index 5) "x", .label (.label "x") "y", .label (.index 7) "x",
   .set ⟨.label "y", false⟩ (.int 2), .label (.label "-1") "z"]

/-- `x` is on its second tile, `y` on the first one of `x`, and `z` where the layout put it. -/
theorem relabelling_is_static : ∃ m, ofLayout (.ofList [("z", 4)]) ∅ = .ok m ∧
    (m.replay relabelling).resolve (.label "x") = .ok 7 ∧
    (m.replay relabelling).resolve (.label "y") = .ok 5 ∧
    (m.replay relabelling).resolve (.label "z") = .ok 4 := by
  obtain ⟨m, hm⟩ : ∃ m, ofLayout (.ofList [("z", 4)]) ∅ = .ok m := ⟨_, rfl⟩
  have haliased := labels_are_static_aliases hm relabelling
  have hx : LastBound "x" 7 m relabelling :=
    .there (.there (.here (.label rfl) (.cons nofun
      (.cons (fun _ => not_binds_of_ne (by decide)) .nil))))
  have hmoment : (m.after (.label (.index 5) "x")).labels["x"]? = some 5 :=
    getElem?_after_of_binds (.label rfl)
  have hy : LastBound "y" 5 m relabelling :=
    .there (.here (.label ((resolve_label_eq_ok (by decide)).mpr hmoment))
      (.cons (fun _ => not_binds_of_ne (by decide)) (.cons nofun
        (.cons (fun _ => not_binds_of_ne (by decide)) .nil))))
  have hz : NeverBound "z" m relabelling := by
    refine .cons (fun _ => not_binds_of_ne (by decide))
      (.cons (fun _ => not_binds_of_ne (by decide))
        (.cons (fun _ => not_binds_of_ne (by decide)) (.cons nofun (.cons ?_ .nil))))
    intro n hbinds
    cases hbinds with
    | label hkey =>
        cases resolve_eq_ok.mp hkey with
        | label hname => exact absurd hname (by decide)
  exact ⟨m, hm, (haliased.resolved "x" 7 (by decide)).mpr (.inl hx),
    (haliased.resolved "y" 5 (by decide)).mpr (.inl hy),
    (haliased.resolved "z" 4 (by decide)).mpr (.inr ⟨hz, rfl⟩)⟩

end Memory

end Mailroom
