/-
What assembling makes of a text.

Lines are taken in one by one, so whatever one line preserves holds of everything that
is assembled.  `Sound` collects this: labels are words and have one entry each, none of
them is beyond the end of the program, and every instruction can be read back from its
text.

The other direction starts from statements.  A text that has each of them on a line of
its own is taken in statement by statement (`assemble_texts`), and as long as no label
comes twice this only adds to the draft.
-/
import Mailroom.Proofs.Assembly.Statement
import Mailroom.Proofs.JumpTable
import Mailroom.Proofs.Text.Lines

namespace Mailroom

namespace Assembly

open Text (IsWord)

/-- What is true of everything that is assembled. -/
structure Sound (program : Program) (jumps : JumpTable) : Prop where
  distinct : jumps.Distinct
  words : ∀ entry ∈ jumps.entries, IsWord entry.1.toList
  /-- A label may stand behind the last instruction, but not further down. -/
  steps : ∀ entry ∈ jumps.entries, entry.2 ≤ program.size
  legible : ∀ i ∈ program, i.Legible

theorem sound_empty : Sound #[] {} where
  distinct := JumpTable.distinct_empty
  words := by simp
  steps := by simp
  legible := by simp

namespace Draft

variable {d : Draft}

theorem declare_jumps (d : Draft) (number : Nat) (label : String) :
    (d.declare number label).jumps = (d.jumps.insert label d.program.size).2 := by
  unfold declare
  split
  · next h => rw [h]
  · next h => rw [h]

theorem declare_program (d : Draft) (number : Nat) (label : String) :
    (d.declare number label).program = d.program := by
  unfold declare
  split <;> rfl

/-- A line keeps what was assembled sound. -/
theorem sound_take (h : Sound d.program d.jumps) (number : Nat) {s : Option Statement}
    (hs : ∀ s' ∈ s, s'.Legible) :
    Sound (d.take number s).program (d.take number s).jumps := by
  cases s with
  | none => exact h
  | some s =>
      have hlegible := hs s rfl
      cases s with
      | label name =>
          simp only [take, declare_jumps, declare_program]
          refine ⟨h.distinct.insert _ _, ?_, ?_, h.legible⟩
          · intro entry hentry
            rcases JumpTable.mem_insert hentry with hentry | rfl
            · exact h.words entry hentry
            · exact hlegible
          · intro entry hentry
            rcases JumpTable.mem_insert hentry with hentry | rfl
            · exact h.steps entry hentry
            · exact Nat.le_refl _
      | instruction i =>
          refine ⟨h.distinct, h.words, ?_, ?_⟩
          · intro entry hentry
            have hbefore : entry.2 ≤ d.program.size := h.steps entry hentry
            show entry.2 ≤ (d.program.push i).size
            rw [Array.size_push]
            omega
          · intro j hj
            rcases Array.mem_push.mp hj with hj | rfl
            · exact h.legible j hj
            · exact hlegible

end Draft

theorem readLines_cons_run (number : Nat) (raw : List Char) (rest : List (List Char))
    (d : Draft) :
    (readLines number (raw :: rest)).run d = match statement? (Line.clean raw) with
      | .ok s => (readLines (number + 1) rest).run (d.take number s)
      | .error kind => .error ⟨kind, number, String.ofList (Line.clean raw)⟩ d := by
  cases hs : statement? (Line.clean raw) with
  | ok s =>
      simp only [readLines, hs]
      rfl
  | error kind =>
      simp only [readLines, hs]
      rfl

/-- A line is read if it is not at fault, and then what is below it is read. -/
theorem readLines_cons_eq_ok {number : Nat} {raw : List Char} {rest : List (List Char)}
    {d d' : Draft} : (readLines number (raw :: rest)).run d = .ok () d' ↔
      ∃ s, statement? (Line.clean raw) = .ok s ∧
        (readLines (number + 1) rest).run (d.take number s) = .ok () d' := by
  rw [readLines_cons_run]
  cases statement? (Line.clean raw) with
  | error kind => simp
  | ok s => simp

theorem sound_of_readLines {lines : List (List Char)} :
    ∀ {number : Nat} {d d' : Draft}, Sound d.program d.jumps →
      (readLines number lines).run d = .ok () d' → Sound d'.program d'.jumps := by
  induction lines with
  | nil =>
      intro number d d' h hrun
      cases hrun
      exact h
  | cons raw rest ih =>
      intro number d d' h hrun
      obtain ⟨s, hs, hrest⟩ := readLines_cons_eq_ok.mp hrun
      have hlegible : ∀ s' ∈ s, s'.Legible := by
        intro s' hs'
        cases hs'
        exact legible_of_statement hs
      exact ih (Draft.sound_take h number hlegible) hrest

theorem assemble_eq_ok {source : String} {a : Assembly} :
    assemble source = .ok a ↔ ∃ d, draft source = .ok () d ∧ a = ⟨d.program, d.jumps⟩ := by
  unfold assemble
  cases draft source with
  | ok u d => simp [eq_comm]
  | error fault d => simp

/-- **Whatever is assembled is sound.** -/
theorem sound_of_assemble {source : String} {a : Assembly} (h : assemble source = .ok a) :
    Sound a.program a.jumps := by
  obtain ⟨d, hdraft, rfl⟩ := assemble_eq_ok.mp h
  exact sound_of_readLines sound_empty hdraft

/-! ### Statements on lines of their own -/

namespace Draft

/-- Takes in statements on consecutive lines, the first of which has the given number. -/
def takeAll (number : Nat) (d : Draft) : List Statement → Draft
  | [] => d
  | s :: rest => takeAll (number + 1) (d.take number (some s)) rest

theorem takeAll_append (ss ss' : List Statement) :
    ∀ (number : Nat) (d : Draft), takeAll number d (ss ++ ss')
      = takeAll (number + ss.length) (takeAll number d ss) ss' := by
  induction ss with
  | nil => intro number d; rfl
  | cons s ss ih =>
      intro number d
      rw [List.cons_append, takeAll, takeAll, ih, List.length_cons]
      congr 1
      omega

/-- New labels are entered with the step of the next instruction. -/
theorem takeAll_labels {names : List String} :
    ∀ {number : Nat} {d : Draft}, names.Nodup → (∀ name ∈ names, name ∉ d.jumps.labels) →
      takeAll number d (names.map .label) =
        { d with jumps := ⟨d.jumps.entries ++ names.map (·, d.program.size)⟩ } := by
  induction names with
  | nil =>
      intro number d _ _
      simp [takeAll]
  | cons name names ih =>
      intro number d hnodup hfresh
      obtain ⟨hname, hnames⟩ := List.nodup_cons.mp hnodup
      obtain ⟨hnew, hnews⟩ := List.forall_mem_cons.mp hfresh
      have hdeclare : d.declare number name =
          { d with jumps := ⟨d.jumps.entries ++ [(name, d.program.size)]⟩ } := by
        rw [declare, JumpTable.insert_fresh hnew]
      rw [List.map_cons, takeAll, take, hdeclare, ih hnames]
      · simp
      · intro name' hmem
        simp only [JumpTable.labels, List.map_append, List.mem_append, not_or]
        refine ⟨hnews name' hmem, ?_⟩
        rw [List.map_singleton, List.mem_singleton]
        rintro rfl
        exact hname hmem

end Draft

theorem readLines_texts {ss : List Statement} :
    ∀ {number : Nat} {d : Draft}, (∀ s ∈ ss, s.Legible) →
      (readLines number (ss.map (·.text.toList))).run d = .ok () (d.takeAll number ss) := by
  induction ss with
  | nil => intro number d _; rfl
  | cons s ss ih =>
      intro number d hlegible
      obtain ⟨hs, hss⟩ := List.forall_mem_cons.mp hlegible
      rw [List.map_cons, readLines_cons_run, (tidy_text hs).clean_eq, statement?_text hs]
      exact ih hss

/-- **A text with a statement on each line assembles to these statements.** -/
theorem assemble_texts {ss : List Statement} (hlegible : ∀ s ∈ ss, s.Legible) :
    assemble ("\n".intercalate (ss.map (·.text))) =
      .ok ⟨(Draft.takeAll 1 {} ss).program, (Draft.takeAll 1 {} ss).jumps⟩ := by
  have hlines : Text.lines '\n' ("\n".intercalate (ss.map (·.text))).toList
      = ss.map (·.text.toList) := by
    have htoList : ("\n".intercalate (ss.map (·.text))).toList
        = ['\n'].intercalate (ss.map (·.text.toList)) := by
      rw [String.toList_intercalate, List.map_map]
      rfl
    rw [htoList]
    refine Text.lines_intercalate ?_ ?_
    · intro l hl
      obtain ⟨s, hs, rfl⟩ := List.mem_map.mp hl
      exact (tidy_text (hlegible s hs)).not_mem (by decide) (by decide)
    · intro l hl
      obtain ⟨s, hs, rfl⟩ := List.mem_map.mp hl
      exact (tidy_text (hlegible s hs)).ne_nil
  refine assemble_eq_ok.mpr ⟨_, ?_, rfl⟩
  rw [draft, hlines]
  exact readLines_texts hlegible

end Assembly

end Mailroom
