/-
Texts one behind the other.

A text of whole lines can be put in front of any other text, and the two are assembled like
each on its own.  The instructions of the second text come behind those of the first, and
its labels are that much further down.  A label that both declare keeps the place that it
has in the table of the first and takes the step that it has in the second
(`JumpTable.append`).  A fault of the first text is the fault of the whole, and one of the
second is only found on a later line.

Assembling goes line by line, so all of this is a matter of one line: `Draft.Joined` says
that a draft `f` is what `e` becomes behind `d`, and a line that is taken into both keeps it
so (`Draft.Joined.take`).
-/
import Mailroom.Proofs.Assembly.Draft

namespace Mailroom

/-! ### Tables one behind the other -/

namespace JumpTable

variable {t u : JumpTable} {offset step : Nat} {label : String}

/-- The table of two texts, the second of which begins at step `offset`. -/
def append (t : JumpTable) (offset : Nat) (u : JumpTable) : JumpTable where
  entries :=
    t.entries.map (fun entry => (entry.1, ((u.get? entry.1).map (offset + ·)).getD entry.2))
      ++ (u.entries.filter (·.1 ∉ t.labels)).map fun entry => (entry.1, offset + entry.2)

/-- Labels of the first text come first, and new ones of the second follow. -/
theorem labels_append (t : JumpTable) (offset : Nat) (u : JumpTable) :
    (t.append offset u).labels = t.labels ++ u.labels.filter (· ∉ t.labels) := by
  simp only [append, labels, List.map_append, List.map_map, List.filter_map]
  rfl

theorem get?_map (entries : List (String × Nat)) (f : String → Nat → Nat) (label : String) :
    (⟨entries.map fun entry => (entry.1, f entry.1 entry.2)⟩ : JumpTable).get? label
      = ((⟨entries⟩ : JumpTable).get? label).map (f label) := by
  induction entries with
  | nil => rfl
  | cons entry rest ih =>
      rw [List.map_cons, get?_cons, get?_cons, ih]
      split
      · next h => rw [h, Option.map_some]
      · rfl

theorem get?_filter (entries : List (String × Nat)) (keep : String → Bool) (label : String) :
    (⟨entries.filter fun entry => keep entry.1⟩ : JumpTable).get? label
      = if keep label then (⟨entries⟩ : JumpTable).get? label else none := by
  induction entries with
  | nil => simp [get?]
  | cons entry rest ih =>
      rw [List.filter_cons, get?_cons]
      cases hkeep : keep entry.1 with
      | true =>
          rw [if_pos rfl, get?_cons, ih]
          by_cases hentry : entry.1 = label
          · rw [if_pos hentry, if_pos hentry, if_pos (hentry ▸ hkeep)]
          · rw [if_neg hentry, if_neg hentry]
      | false =>
          rw [if_neg Bool.false_ne_true, ih]
          by_cases hentry : entry.1 = label
          · rw [← hentry, hkeep, if_neg Bool.false_ne_true, if_neg Bool.false_ne_true]
          · rw [if_neg hentry]

/-- Where a label is depends on the second text, if that declares it. -/
theorem get?_append_eq (t : JumpTable) (offset : Nat) (u : JumpTable) (label : String) :
    (t.append offset u).get? label = ((u.get? label).map (offset + ·)).or (t.get? label) := by
  rw [append, get?_append, get?_map t.entries fun label old =>
    ((u.get? label).map (offset + ·)).getD old, get?_map _ fun _ step => offset + step,
    get?_filter u.entries fun label => label ∉ t.labels]
  cases hold : t.get? label with
  | none =>
      have hnew : label ∉ t.labels := get?_eq_none.mp hold
      simp [hnew]
  | some old =>
      have hthere : label ∈ t.labels := by
        by_contra hnew
        rw [get?_eq_none.mpr hnew] at hold
        cases hold
      cases u.get? label <;> simp [hthere]

theorem Distinct.append (ht : t.Distinct) (hu : u.Distinct) (offset : Nat) :
    (t.append offset u).Distinct := by
  rw [Distinct, labels_append]
  refine List.nodup_append.mpr ⟨ht, hu.filter _, ?_⟩
  intro a ha b hb
  have hnew := (List.mem_filter.mp hb).2
  rintro rfl
  simp [ha] at hnew

theorem append_empty (t : JumpTable) (offset : Nat) : t.append offset {} = t := by
  simp [append, get?]

/-- Declaring a label in the second text declares it in the whole. -/
theorem append_insert (ht : t.Distinct) (hu : u.Distinct) :
    t.append offset (u.insert label step).2
      = ((t.append offset u).insert label (offset + step)).2 := by
  -- the order of the labels and the steps they name are two questions, so each is settled alone
  refine (ht.append (hu.insert label step) offset).ext
    ((ht.append hu offset).insert label (offset + step)) ?_ ?_
  · rw [labels_append, labels_insert, labels_insert, labels_append]
    by_cases hthere : label ∈ t.labels <;> by_cases hagain : label ∈ u.labels <;>
      simp [hthere, hagain, List.filter_append]
  · intro label'
    rw [get?_append_eq, get?_insert, get?_insert, get?_append_eq]
    split <;> rfl

end JumpTable

/-- Two programs one behind the other. -/
def Assembly.append (x y : Assembly) : Assembly where
  program := x.program ++ y.program
  jumps := x.jumps.append x.program.size y.jumps

namespace Assembly

/-! ### Drafts one behind the other -/

namespace Draft

variable {d e f : Draft}

/-- The draft `f` is what is made of the lines of `e` if those of `d` come before them. -/
structure Joined (d e f : Draft) : Prop where
  program : f.program = d.program ++ e.program
  jumps : f.jumps = d.jumps.append d.program.size e.jumps
  distinct : e.jumps.Distinct

namespace Joined

theorem empty (d : Draft) : Joined d {} d where
  program := Array.append_empty.symm
  jumps := (JumpTable.append_empty _ _).symm
  distinct := JumpTable.distinct_empty

/-- A line means the same to both, and the numbers of the lines have no part in it. -/
theorem take (h : Joined d e f) (hd : d.jumps.Distinct) (number number' : Nat)
    (s : Option Statement) : Joined d (e.take number s) (f.take number' s) := by
  cases s with
  | none => exact h
  | some s =>
      cases s with
      | label name =>
          simp only [Draft.take]
          refine ⟨?_, ?_, ?_⟩
          · simp only [declare_program, h.program]
          · rw [declare_jumps, declare_jumps, JumpTable.append_insert hd h.distinct, h.jumps,
              h.program, Array.size_append]
          · rw [declare_jumps]
            exact h.distinct.insert _ _
      | instruction i =>
          refine ⟨?_, h.jumps, h.distinct⟩
          show f.program.push i = d.program ++ e.program.push i
          rw [h.program, Array.append_push]

theorem assembly_eq (h : Joined d e f) :
    (⟨f.program, f.jumps⟩ : Assembly)
      = append ⟨d.program, d.jumps⟩ ⟨e.program, e.jumps⟩ := by
  rw [h.program, h.jumps]
  rfl

end Joined

end Draft

/-! ### Lines one behind the other -/

variable {d : Draft}

/-- The first lines make a draft, and the others go on with it. -/
theorem readLines_append_run (front back : List (List Char)) :
    ∀ (number : Nat) (d : Draft), (readLines number (front ++ back)).run d
      = match (readLines number front).run d with
        | .ok _ d' => (readLines (front.length + number) back).run d'
        | .error fault d' => .error fault d' := by
  induction front with
  | nil =>
      intro number d
      rw [List.length_nil, Nat.zero_add]
      rfl
  | cons raw rest ih =>
      intro number d
      rw [List.cons_append, readLines_cons_run, readLines_cons_run]
      cases statement? (Line.clean raw) with
      | error kind => rfl
      | ok s =>
          simp only [ih]
          rw [List.length_cons, Nat.succ_add_eq_add_succ]

theorem readLines_append_eq_ok {front back : List (List Char)} {number : Nat} {d d' : Draft} :
    (readLines number (front ++ back)).run d = .ok () d' ↔
      ∃ e, (readLines number front).run d = .ok () e ∧
        (readLines (front.length + number) back).run e = .ok () d' := by
  rw [readLines_append_run]
  cases (readLines number front).run d with
  | error fault e => simp
  | ok u e => simp

/-- What becomes of some lines, alone and `count` lines further down behind the draft `d`. -/
inductive Agree (count : Nat) (d : Draft) :
    EStateM.Result Fault Draft Unit → EStateM.Result Fault Draft Unit → Prop
  | ok {e f : Draft} (h : Draft.Joined d e f) : Agree count d (.ok () e) (.ok () f)
  | error {fault : Fault} {e f : Draft} : Agree count d (.error fault e)
      (.error { fault with line := count + fault.line } f)

theorem readLines_agree {lines : List (List Char)} {count : Nat} (hd : d.jumps.Distinct) :
    ∀ {number : Nat} {e f : Draft}, Draft.Joined d e f →
      Agree count d ((readLines number lines).run e)
        ((readLines (count + number) lines).run f) := by
  induction lines with
  | nil => intro number e f h; exact .ok h
  | cons raw rest ih =>
      intro number e f h
      rw [readLines_cons_run, readLines_cons_run]
      cases statement? (Line.clean raw) with
      | error kind => exact .error
      | ok s => exact ih (h.take hd number (count + number) s)

/-- The lines of a whole text, behind `count` lines that have made the draft `d`. -/
theorem agree_behind (hd : d.jumps.Distinct) (count : Nat) (lines : List (List Char)) :
    Agree count d ((readLines 1 lines).run {}) ((readLines (count + 1) lines).run d) :=
  readLines_agree hd (.empty d)

/-- Lines that can be read behind others can be read alone. -/
theorem readLines_alone {lines : List (List Char)} {count : Nat} {f : Draft}
    (hd : d.jumps.Distinct) (h : (readLines (count + 1) lines).run d = .ok () f) :
    ∃ e, (readLines 1 lines).run {} = .ok () e ∧ Draft.Joined d e f := by
  have hagree := agree_behind hd count lines
  rw [h] at hagree
  cases halone : (readLines 1 lines).run {} with
  | error fault e =>
      rw [halone] at hagree
      cases hagree
  | ok u e =>
      rw [halone] at hagree
      cases hagree with
      | ok hjoined => exact ⟨e, rfl, hjoined⟩

/-- And lines that can be read alone can be read behind any others. -/
theorem readLines_behind {lines : List (List Char)} {e : Draft} (hd : d.jumps.Distinct)
    (h : (readLines 1 lines).run {} = .ok () e) (count : Nat) :
    ∃ f, (readLines (count + 1) lines).run d = .ok () f ∧ Draft.Joined d e f := by
  have hagree := agree_behind hd count lines
  rw [h] at hagree
  generalize (readLines (count + 1) lines).run d = behind at hagree ⊢
  cases hagree with
  | ok hjoined => exact ⟨_, rfl, hjoined⟩

/-! ### Texts one behind the other -/

/-- A text of whole lines has its lines in front of those of the other. -/
theorem lines_append_of_whole {a : String} (b : String) (ha : a = "" ∨ ∃ s, a = s ++ "\n") :
    Text.lines '\n' (a ++ b).toList = Text.lines '\n' a.toList ++ Text.lines '\n' b.toList := by
  have hwhole : Text.Whole '\n' a.toList := by
    rcases ha with rfl | ⟨s, rfl⟩
    · exact .inl rfl
    · exact .inr ⟨s.toList, String.toList_append⟩
  rw [String.toList_append, Text.lines_whole_append hwhole]

end Assembly

open Assembly

/--
**Assembling goes text by text.**  If the first of two texts consists of whole lines, both
together assemble to the programs of the two, one behind the other.  A fault of the first text
is found where it is, and one of the second as many lines further down as the first has.
-/
theorem assemble_append {a : String} (b : String) (ha : a = "" ∨ ∃ s, a = s ++ "\n") :
    assemble (a ++ b) = match assemble a, assemble b with
      | .error fault, _ => .error fault
      | .ok _, .error fault =>
        .error { fault with line := (Text.lines '\n' a.toList).length + fault.line }
      | .ok x, .ok y => .ok (x.append y) := by
  unfold assemble draft
  rw [lines_append_of_whole b ha, readLines_append_run]
  cases hfirst : (readLines 1 (Text.lines '\n' a.toList)).run {} with
  | error fault d => rfl
  | ok u d =>
      have hd : d.jumps.Distinct := (sound_of_readLines sound_empty hfirst).distinct
      have hagree :=
        agree_behind hd (Text.lines '\n' a.toList).length (Text.lines '\n' b.toList)
      dsimp only
      generalize (readLines 1 (Text.lines '\n' b.toList)).run {} = alone at hagree ⊢
      generalize (readLines ((Text.lines '\n' a.toList).length + 1)
        (Text.lines '\n' b.toList)).run d = behind at hagree ⊢
      cases hagree with
      | ok h => exact congrArg Except.ok h.assembly_eq
      | error => rfl

/-- A text of whole lines, one of them blank but for a comment. -/
def preamble : String :=
  "start:\r\nmove_from_inbox\r\n  # the end\r\nend:\n"

/-- The second text declares `end` again, and the third has a fault in its second line. -/
theorem assemble_preamble :
    assemble (preamble ++ "loop:\njump_to end\nend:") = .ok {
      program := #[.moveFromInbox, .jump .always (.label "end")]
      jumps := ⟨[("start", 0), ("end", 2), ("loop", 1)]⟩ } ∧
    assemble (preamble ++ "\njump_to") = .error ⟨.argumentRequired, 6, "jump_to"⟩ := by
  have hwhole : preamble = "" ∨ ∃ s, preamble = s ++ "\n" :=
    .inr ⟨"start:\r\nmove_from_inbox\r\n  # the end\r\nend:", rfl⟩
  rw [assemble_append _ hwhole, assemble_append _ hwhole]
  decide +kernel

end Mailroom
