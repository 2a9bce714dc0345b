/-
A listing holds the steps of its range and their labels, each once.

Where a label stands says which step it names: `namesAbove` finds the names above each line of an
instruction and those behind the last one.  In a listing that reaches the end of the program these
are the labels of the steps, one after the other, and those of the step after the program
(`namesAbove_lines`, by induction on the number of steps that are listed).  Labels of later steps
are in no listing.

So the labels of a step are listed with the step, and those of the step after the program with the
end.  This is why a listing can be cut before any step, and why it cannot be cut at the end, where
both parts would show the labels behind the program.
-/
import Mathlib.Data.List.FinRange
import Mailroom.Proofs.Listing

namespace Mailroom

/-! ### Lines -/

namespace ListingLine

/-- The name on a line of a label. -/
def name? : ListingLine → Option String
  | label name => some name
  | step .. => none

/-- Is it the line of an instruction? -/
def isStep : ListingLine → Bool
  | label _ => false
  | step .. => true

/-- The names that stand directly above instruction line number `s`, or at the end if `s` is the
number of instruction lines. -/
def namesAbove : List ListingLine → Nat → List String
  | [], _ => []
  | label name :: rest, 0 => name :: namesAbove rest 0
  | label _ :: rest, s + 1 => namesAbove rest (s + 1)
  | step .. :: _, 0 => []
  | step .. :: rest, s + 1 => namesAbove rest s

theorem namesAbove_labels (names : List String) (rest : List ListingLine) (s : Nat) :
    namesAbove (names.map label ++ rest) s
      = if s = 0 then names ++ namesAbove rest 0 else namesAbove rest s := by
  induction names with
  | nil =>
      cases s with
      | zero => rfl
      | succ s => rfl
  | cons name names ih =>
      cases s with
      | zero =>
          show name :: namesAbove (names.map label ++ rest) 0 = _
          rw [ih]
          rfl
      | succ s =>
          show namesAbove (names.map label ++ rest) (s + 1) = _
          rw [ih]
          rfl

/-- The two marks can be seen in the text. -/
theorem marks_of_text (breakpoint current : Bool) (number : Nat) (i : Instruction) :
    ((step breakpoint current number i).text.toList[2]? = some '!' ↔ breakpoint = true) ∧
    ((step breakpoint current number i).text.toList[3]? = some '@' ↔ current = true) := by
  cases breakpoint <;> cases current <;> simp [text]

end ListingLine

/-! ### The labels of the first steps -/

namespace JumpTable

theorem labelsAt_zip (t : JumpTable) (step : Nat) :
    (t.labelsAt step).map (·, step) = t.entries.filter (·.2 == step) := by
  rw [labelsAt, List.map_map]
  conv_rhs => rw [← List.map_id (t.entries.filter _)]
  refine List.map_congr_left ?_
  intro entry hentry
  have hstep : entry.2 = step := by simpa using (List.mem_filter.mp hentry).2
  rw [← hstep]
  rfl

theorem placed_names (t : JumpTable) (n : Nat) :
    (t.placed n).map (·.1) = (List.range n).flatMap t.labelsAt := by
  rw [placed, List.map_flatMap]
  simp [Function.comp_def]

/-- The entries before the next step are those before this one and those of this one. -/
theorem filter_lt_succ_perm (entries : List (String × Nat)) (n : Nat) :
    (entries.filter (·.2 < n) ++ entries.filter (·.2 == n)).Perm
      (entries.filter (·.2 < n + 1)) := by
  have hsplit := List.filter_append_perm (fun entry : String × Nat => decide (entry.2 < n))
    (entries.filter (·.2 < n + 1))
  rw [List.filter_filter, List.filter_filter] at hsplit
  have hbefore : ∀ entry : String × Nat,
      (decide (entry.2 < n) && decide (entry.2 < n + 1)) = decide (entry.2 < n) := by
    intro entry
    rw [Bool.eq_iff_iff, Bool.and_eq_true, decide_eq_true_eq, decide_eq_true_eq]
    omega
  have hhere : ∀ entry : String × Nat,
      (!decide (entry.2 < n) && decide (entry.2 < n + 1)) = (entry.2 == n) := by
    intro entry
    rw [Bool.eq_iff_iff, Bool.and_eq_true, Bool.not_eq_true', decide_eq_false_iff_not,
      decide_eq_true_eq, beq_iff_eq]
    omega
  simp only [hbefore, hhere] at hsplit
  exact hsplit

/-- To go through the steps finds each entry once. -/
theorem placed_perm (t : JumpTable) (n : Nat) :
    (t.placed n).Perm (t.entries.filter (·.2 < n)) := by
  induction n with
  | zero => simp [placed]
  | succ n ih =>
      rw [placed_succ, labelsAt_zip]
      exact (ih.append_right _).trans (filter_lt_succ_perm t.entries n)

end JumpTable

/-! ### The lines of a range -/

namespace Computer

variable {c : Computer} {breakpoints : Std.ExtTreeSet Nat} {start stop : Nat}

/-- The line of an instruction. -/
def stepLine (c : Computer) (breakpoints : Std.ExtTreeSet Nat) (k : Fin c.program.size) :
    ListingLine :=
  .step (k.val ∈ breakpoints) (c.cpu.pc = some k.val) k c.program[k]

theorem stepLines_eq (breakpoints : Std.ExtTreeSet Nat) (k : Fin c.program.size) :
    c.stepLines breakpoints k = c.labelLines k ++ [c.stepLine breakpoints k] := by
  have hget : c.program[k.val]? = some c.program[k] := Array.getElem?_eq_getElem k.isLt
  have hbreak : breakpoints.contains k.val = decide (k.val ∈ breakpoints) := by
    rw [Bool.eq_iff_iff, decide_eq_true_eq, Std.ExtTreeSet.contains_iff_mem]
  have hpc : (c.cpu.pc == some k.val) = decide (c.cpu.pc = some k.val) := beq_eq_decide _ _
  rw [stepLines, hget, hbreak, hpc]
  rfl

/-- The lines of a listing that reaches the end. -/
def linesFrom (c : Computer) (breakpoints : Std.ExtTreeSet Nat) (start count : Nat) :
    List ListingLine :=
  (List.range' start count).flatMap (c.stepLines breakpoints) ++ c.labelLines (start + count)

theorem linesFrom_succ (k : Fin c.program.size) (count : Nat) :
    c.linesFrom breakpoints k (count + 1) = (c.jumps.labelsAt k).map .label
      ++ c.stepLine breakpoints k :: c.linesFrom breakpoints (k + 1) count := by
  rw [linesFrom, List.range'_succ, List.flatMap_cons, stepLines_eq, List.append_assoc,
    List.append_assoc, linesFrom, Nat.add_assoc, Nat.add_comm 1 count]
  rfl

/-- Every step has its labels above it, and the labels of the step after the program stand at the
end. -/
theorem namesAbove_lines (count start : Nat) (h : start + count = c.program.size) (s : Nat) :
    ListingLine.namesAbove (c.linesFrom breakpoints start count) s
      = if s ≤ count then c.jumps.labelsAt (start + s) else [] := by
  induction count generalizing start s with
  | zero =>
      have hlines : c.linesFrom breakpoints start 0
          = (c.jumps.labelsAt start).map .label ++ [] := (List.append_nil _).symm
      rw [hlines, ListingLine.namesAbove_labels]
      by_cases hs : s = 0
      · subst hs
        simp [ListingLine.namesAbove]
      · rw [if_neg hs, if_neg (by omega)]
        rfl
  | succ count ih =>
      have hlt : start < c.program.size := by omega
      rw [linesFrom_succ ⟨start, hlt⟩, ListingLine.namesAbove_labels]
      cases s with
      | zero => exact List.append_nil _
      | succ s =>
          show ListingLine.namesAbove (c.linesFrom breakpoints (start + 1) count) s = _
          rw [ih (start + 1) (by omega), Nat.add_right_comm]
          simp only [Nat.add_le_add_iff_right, Nat.add_assoc]

/-- A range that starts with the program and reaches its end. -/
theorem listing_whole (h : c.program.size ≤ stop) :
    c.listing 0 stop breakpoints = c.linesFrom breakpoints 0 c.program.size := by
  simp only [listing, linesFrom, Nat.min_eq_right h, Nat.sub_zero, Nat.zero_add, Nat.zero_le,
    and_self, if_true]

/-- The steps of the program, each with its labels. -/
theorem flatMap_steps (breakpoints : Std.ExtTreeSet Nat) :
    (List.range' 0 c.program.size).flatMap (c.stepLines breakpoints)
      = (List.finRange c.program.size).flatMap fun k : Fin c.program.size =>
        c.labelLines k ++ [c.stepLine breakpoints k] := by
  rw [← List.range_eq_range', ← List.map_coe_finRange_eq_range, List.flatMap_map]
  simp only [stepLines_eq]

theorem filter_labelLines (c : Computer) (step : Nat) :
    (c.labelLines step).filter ListingLine.isStep = [] := by
  rw [labelLines, List.filter_map]
  simp [Function.comp_def, ListingLine.isStep]

/-- Every instruction has one line, and the lines are in the order of the steps. -/
theorem steps_of_lines : (c.linesFrom breakpoints 0 c.program.size).filter ListingLine.isStep
    = (List.finRange c.program.size).map (c.stepLine breakpoints) := by
  rw [linesFrom, List.filter_append, filter_labelLines, List.append_nil, flatMap_steps,
    List.filter_flatMap, List.map_eq_flatMap]
  refine List.flatMap_congr ?_
  intro k _
  rw [List.filter_append, filter_labelLines]
  rfl

theorem filterMap_labelLines (c : Computer) (step : Nat) :
    (c.labelLines step).filterMap ListingLine.name? = c.jumps.labelsAt step := by
  rw [labelLines, List.filterMap_map]
  exact List.filterMap_some

/-- Every entry of a step up to the end has one line. -/
theorem names_of_lines :
    (c.linesFrom breakpoints 0 c.program.size).filterMap ListingLine.name?
      = (c.jumps.placed (c.program.size + 1)).map (·.1) := by
  rw [linesFrom, List.filterMap_append, filterMap_labelLines, Nat.zero_add, flatMap_steps,
    List.filterMap_flatMap, JumpTable.placed_names, List.range_succ, List.flatMap_append,
    List.flatMap_singleton, ← List.map_coe_finRange_eq_range, List.flatMap_map]
  congr 1
  refine List.flatMap_congr ?_
  intro k _
  rw [List.filterMap_append, filterMap_labelLines]
  exact List.append_nil _

/-! ### Cutting a listing in two -/

theorem listing_append {a b e : Nat} (ha : a ≤ b) (hb : b < c.program.size) (he : b ≤ e) :
    c.listing a b breakpoints ++ c.listing b e breakpoints = c.listing a e breakpoints := by
  have hrange : List.range' a (b - a) ++ List.range' b (min e c.program.size - b)
      = List.range' a (min e c.program.size - a) := by
    have hsplit := List.range'_append_1 (s := a) (m := b - a) (n := min e c.program.size - b)
    have hmiddle : a + (b - a) = b := by omega
    have hcount : b - a + (min e c.program.size - b) = min e c.program.size - a := by omega
    rw [hmiddle, hcount] at hsplit
    exact hsplit
  have hfirst : min b c.program.size = b := Nat.min_eq_left (Nat.le_of_lt hb)
  have hends : (min e c.program.size = c.program.size ∧ b ≤ min e c.program.size)
      = (min e c.program.size = c.program.size ∧ a ≤ min e c.program.size) := by
    rw [eq_iff_iff]
    omega
  simp only [listing, hfirst, Nat.ne_of_lt hb, false_and, if_false, List.append_nil, hends]
  rw [← List.append_assoc, ← List.flatMap_append, hrange]

theorem listing_beyond (h : c.program.size < start) : c.listing start stop breakpoints = [] := by
  have hnone : min stop c.program.size - start = 0 := by omega
  have hpast : ¬ start ≤ min stop c.program.size := by omega
  simp only [listing, hnone, hpast, and_false, if_false]
  rfl

/-! ### A listing that looks before it leaps -/

/-- A step below its labels, or nothing at all where the program has no such step. -/
def stepLines? (c : Computer) (breakpoints : Std.ExtTreeSet Nat) (step : Nat) :
    Option (List ListingLine) := do
  let i ← c.program[step]?
  some (c.labelLines step
    ++ [.step (breakpoints.contains step) (c.cpu.pc == some step) step i])

/-- The listing that is given up as soon as it comes to a step outside the program. -/
def listing? (c : Computer) (start stop : Nat) (breakpoints : Std.ExtTreeSet Nat) :
    Option (List ListingLine) := do
  let stop := min stop c.program.size
  let steps ← (List.range' start (stop - start)).mapM (c.stepLines? breakpoints)
  some (steps.flatten ++ if stop = c.program.size ∧ start ≤ stop then c.labelLines stop else [])

theorem stepLines?_eq {step : Nat} (h : step < c.program.size) :
    c.stepLines? breakpoints step = some (c.stepLines breakpoints step) := by
  rw [stepLines?, stepLines, Array.getElem?_eq_getElem h]
  rfl

theorem mapM_stepLines? (steps : List Nat) (h : ∀ step ∈ steps, step < c.program.size) :
    steps.mapM (c.stepLines? breakpoints) = some (steps.map (c.stepLines breakpoints)) := by
  induction steps with
  | nil => rfl
  | cons step rest ih =>
      obtain ⟨hstep, hrest⟩ := List.forall_mem_cons.mp h
      rw [List.mapM_cons, stepLines?_eq hstep, ih hrest]
      rfl

/-- No range makes a listing look outside the program. -/
theorem listing?_eq (c : Computer) (start stop : Nat) (breakpoints : Std.ExtTreeSet Nat) :
    c.listing? start stop breakpoints = some (c.listing start stop breakpoints) := by
  have hinside : ∀ step ∈ List.range' start (min stop c.program.size - start),
      step < c.program.size := by
    intro step hstep
    have hbounds := List.mem_range'_1.mp hstep
    omega
  simp only [listing?, mapM_stepLines? _ hinside]
  rfl

/-! ### All there is to see -/

/-- The lines show the whole program with its labels. -/
structure Shown (c : Computer) (breakpoints : Std.ExtTreeSet Nat) (lines : List ListingLine) :
    Prop where
  /-- Each instruction has one line, in the order of the steps. -/
  steps : lines.filter ListingLine.isStep
    = (List.finRange c.program.size).map (c.stepLine breakpoints)
  /-- An exclamation mark is on the lines of the breakpoints and an at sign on the one of the
  current step. -/
  marked : ∀ b here number i, .step b here number i ∈ lines →
    ((ListingLine.step b here number i).text.toList[2]? = some '!' ↔ number ∈ breakpoints) ∧
    ((ListingLine.step b here number i).text.toList[3]? = some '@' ↔ c.cpu.pc = some number)
  /-- Each entry of the jump table that names a step up to the end has one line, -/
  names : (lines.filterMap ListingLine.name?).Perm
    ((c.jumps.entries.filter (·.2 ≤ c.program.size)).map (·.1))
  /-- which stands directly above the line of that step, or at the end if it is the step after
  the program; the labels of a step are in the order of the table. -/
  placed : ∀ s, ListingLine.namesAbove lines s
    = if s ≤ c.program.size then (c.jumps.entries.filter (·.2 == s)).map (·.1) else []

theorem marked_of_steps {lines : List ListingLine} {b here : Bool} {number : Nat}
    {i : Instruction} (h : lines.filter ListingLine.isStep
      = (List.finRange c.program.size).map (c.stepLine breakpoints))
    (hline : .step b here number i ∈ lines) :
    (b = true ↔ number ∈ breakpoints) ∧ (here = true ↔ c.cpu.pc = some number) := by
  have hmem : ListingLine.step b here number i ∈ lines.filter ListingLine.isStep :=
    List.mem_filter.mpr ⟨hline, rfl⟩
  rw [h] at hmem
  obtain ⟨k, -, hk⟩ := List.mem_map.mp hmem
  cases hk
  exact ⟨decide_eq_true_iff, decide_eq_true_iff⟩

theorem shown_lines (c : Computer) (breakpoints : Std.ExtTreeSet Nat) :
    c.Shown breakpoints (c.linesFrom breakpoints 0 c.program.size) where
  steps := steps_of_lines
  marked := by
    intro b here number i hline
    obtain ⟨hbreak, hhere⟩ := marked_of_steps steps_of_lines hline
    obtain ⟨hmark, hat⟩ := ListingLine.marks_of_text b here number i
    exact ⟨hmark.trans hbreak, hat.trans hhere⟩
  names := by
    rw [names_of_lines]
    have hperm := (c.jumps.placed_perm (c.program.size + 1)).map (·.1)
    simp only [Nat.lt_succ_iff] at hperm
    exact hperm
  placed := by
    intro s
    rw [namesAbove_lines c.program.size 0 (Nat.zero_add _), Nat.zero_add]
    rfl

/-- What listings of all ranges show. -/
structure Listed (c : Computer) (breakpoints : Std.ExtTreeSet Nat) : Prop where
  /-- A listing from the first step that reaches the end shows the whole program. -/
  whole : ∀ stop, c.program.size ≤ stop → c.Shown breakpoints (c.listing 0 stop breakpoints)
  /-- A listing can be cut before any step. -/
  cut : ∀ a b e, a ≤ b → b < c.program.size → b ≤ e →
    c.listing a b breakpoints ++ c.listing b e breakpoints = c.listing a e breakpoints
  /-- There is nothing to list beyond the end. -/
  beyond : ∀ start stop, c.program.size < start → c.listing start stop breakpoints = []
  /-- No listing looks at a step outside the program. -/
  inside : ∀ start stop,
    c.listing? start stop breakpoints = some (c.listing start stop breakpoints)

/--
**A listing neither loses nor repeats anything**, and it can be split at any step, whatever the
program, the jump table, the breakpoints and the current step.
-/
theorem listing_keeps_all (c : Computer) (breakpoints : Std.ExtTreeSet Nat) :
    c.Listed breakpoints where
  whole := by
    intro stop h
    rw [listing_whole h]
    exact c.shown_lines breakpoints
  cut _ _ _ := listing_append
  beyond _ _ := listing_beyond
  inside start stop := c.listing?_eq start stop breakpoints

/-- Two steps, with a label for each of them, one behind the program and one beyond its end. -/
def signposted : Computer where
  cpu := { pc := some 0 }
  program := #[.noOp, .noOp]
  jumps := ⟨[("end", 2), ("b", 1), ("a", 0), ("far", 3)]⟩

theorem signposted_listed :
    (signposted.listing 0 7 {0}).map (·.text)
      = ["a:", "  !@000: no_op", "b:", "    001: no_op", "end:"] ∧
    signposted.listing 0 1 {0} ++ signposted.listing 1 7 {0} = signposted.listing 0 7 {0} ∧
    signposted.listing 3 7 {0} = [] := by
  have hlisted := listing_keeps_all signposted {0}
  exact ⟨by decide +kernel, hlisted.cut 0 1 7 (by decide) (by decide) (by decide),
    hlisted.beyond 3 7 (by decide)⟩

end Computer

end Mailroom
