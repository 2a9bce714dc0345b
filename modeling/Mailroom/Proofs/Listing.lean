/-
Listing undoes assembling.

A listing shows all there is to a program, in other columns.  Without the columns in
front of its instructions it is program text again, with one statement on each line, and
that text assembles to the same program.

The jump table comes back with its entries in another order.  Labels were entered as
they were declared, and a label that was declared twice kept its first place; in a
listing they are ordered by step.  `placed` is the table that results.  Since the order
among the labels of one step is kept, nobody can tell the two tables apart who only
looks labels up or asks for the labels of a step, and so the listings are the same too.
-/
import Mailroom.Computer.Listing
import Mailroom.Proofs.Assembly.Draft

namespace Mailroom

open Assembly

/-! ### From a listing to program text -/

namespace Listing

/-- What follows the first colon that has a space behind it. -/
def pastColon? : List Char → Option (List Char)
  | ':' :: ' ' :: rest => some rest
  | _ :: rest => pastColon? rest
  | [] => none

/-- The line without the columns of an instruction, which start with two spaces. -/
def bare (line : String) : String :=
  match line.toList with
  | ' ' :: ' ' :: rest =>
    match pastColon? (' ' :: ' ' :: rest) with
    | some cs => String.ofList cs
    | none => line
  | _ => line

/-- The lines as program text. -/
def source (lines : List String) : String :=
  "\n".intercalate (lines.map bare)

theorem pastColon?_append {front : List Char} (h : ':' ∉ front) (rest : List Char) :
    pastColon? (front ++ ':' :: ' ' :: rest) = some rest := by
  induction front with
  | nil => rfl
  | cons c front ih =>
      rw [List.mem_cons, not_or] at h
      obtain ⟨hc, hfront⟩ := h
      rw [List.cons_append, pastColon?, ih hfront]
      intro _ hcolon
      exact absurd hcolon.symm hc

end Listing

/-- What the line contributes when it is read as program text. -/
def ListingLine.statement : ListingLine → Statement
  | label name => .label name
  | step _ _ _ i => .instruction i

namespace ListingLine

theorem text_of_step (breakpoint current : Bool) (number : Nat) (i : Instruction) :
    ∃ mark here, mark ≠ ':' ∧ here ≠ ':' ∧ (step breakpoint current number i).text.toList
      = (' ' :: ' ' :: mark :: here :: (Numeral.ofStep number).toList)
        ++ ':' :: ' ' :: i.text.toList := by
  refine ⟨if breakpoint then '!' else ' ', if current then '@' else ' ', ?_, ?_, ?_⟩
  · cases breakpoint <;> decide
  · cases current <;> decide
  · cases breakpoint <;> cases current <;> simp [text]

/-- Without its columns a line of a listing is the text of what it stands for. -/
theorem bare_text {l : ListingLine} (h : l.statement.Legible) :
    Listing.bare l.text = l.statement.text := by
  cases l with
  | label name =>
      have hword : Text.IsWord name.toList := h
      have htext : (label name).text.toList = name.toList ++ [':'] := String.toList_append
      unfold Listing.bare
      rw [htext]
      split
      · next hspaces =>
        -- A word does not start with a space.
        have hhead := hword.head_not_blank [':'] ' ' (by rw [hspaces]; rfl)
        cases hhead
      · rfl
  | step breakpoint current number i =>
      obtain ⟨mark, here, hmark, hhere, htext⟩ := text_of_step breakpoint current number i
      have hcolon : ':' ∉ (' ' :: ' ' :: mark :: here :: (Numeral.ofStep number).toList) := by
        have hdigits : ':' ∉ (Numeral.ofStep number).toList := by
          intro hmem
          cases (Numeral.isWord_ofStep number).chars ':' hmem
        simp [hmark.symm, hhere.symm, hdigits]
      have hpast := Listing.pastColon?_append hcolon i.text.toList
      unfold Listing.bare
      rw [htext]
      simp only [List.cons_append] at hpast ⊢
      rw [hpast]
      exact String.ofList_toList

example : Listing.bare "  !@012: add [7]" = "add [7]" := by decide

end ListingLine

/-! ### The statements of a listing -/

/-- The statements of a step: its labels, and the instruction if there is one. -/
def Assembly.statementsAt (program : Program) (jumps : JumpTable) (step : Nat) :
    List Statement :=
  match program[step]? with
  | some i => (jumps.labelsAt step).map .label ++ [.instruction i]
  | none => []

/-- The statements of a whole program. -/
def Assembly.statements (program : Program) (jumps : JumpTable) : List Statement :=
  (List.range program.size).flatMap (statementsAt program jumps)
    ++ (jumps.labelsAt program.size).map .label

theorem Computer.listing_statements (c : Computer) (breakpoints : Std.ExtTreeSet Nat) :
    (c.listing 0 c.program.size breakpoints).map (·.statement)
      = statements c.program c.jumps := by
  have hlabels : ∀ step, (c.labelLines step).map (·.statement)
      = (c.jumps.labelsAt step).map .label := by
    intro step
    simp only [labelLines, List.map_map]
    rfl
  have hstep : ∀ step, (c.stepLines breakpoints step).map (·.statement)
      = statementsAt c.program c.jumps step := by
    intro step
    unfold stepLines statementsAt
    cases c.program[step]? with
    | none => rfl
    | some i =>
        simp only [List.map_append, hlabels]
        rfl
  unfold listing statements
  simp only [Nat.min_self, Nat.sub_zero, true_and, Nat.zero_le, if_true, List.map_append,
    List.map_flatMap, hlabels, hstep, List.range_eq_range']

theorem Assembly.legible_statements {program : Program} {jumps : JumpTable}
    (h : Sound program jumps) : ∀ s ∈ statements program jumps, s.Legible := by
  have hlabels : ∀ step, ∀ s ∈ (jumps.labelsAt step).map Statement.label, s.Legible := by
    intro step s hs
    obtain ⟨label, hlabel, rfl⟩ := List.mem_map.mp hs
    exact h.words _ (JumpTable.mem_labelsAt.mp hlabel)
  intro s hs
  rcases List.mem_append.mp hs with hs | hs
  · obtain ⟨step, -, hs⟩ := List.mem_flatMap.mp hs
    unfold statementsAt at hs
    split at hs
    · next i hi =>
      rcases List.mem_append.mp hs with hs | hs
      · exact hlabels step s hs
      · rw [List.mem_singleton.mp hs]
        exact h.legible i (Array.mem_of_getElem? hi)
    · cases hs
  · exact hlabels _ s hs

/-! ### The jump table by steps -/

namespace JumpTable

/-- The entries of the first `n` steps, in the order of the steps. -/
def placed (t : JumpTable) (n : Nat) : List (String × Nat) :=
  (List.range n).flatMap fun step => (t.labelsAt step).map (·, step)

variable {t : JumpTable} {n : Nat}

theorem placed_succ (t : JumpTable) (n : Nat) :
    t.placed (n + 1) = t.placed n ++ (t.labelsAt n).map (·, n) := by
  simp [placed, List.range_succ]

theorem mem_placed {label : String} {step : Nat} :
    (label, step) ∈ t.placed n ↔ step < n ∧ (label, step) ∈ t.entries := by
  simp [placed, List.mem_flatMap, mem_labelsAt]

theorem labelsAt_map (names : List String) (n step : Nat) :
    (⟨names.map (·, n)⟩ : JumpTable).labelsAt step = if step = n then names else [] := by
  by_cases heq : step = n
  · subst heq
    simp [labelsAt, List.filter_map, Function.comp_def]
  · simp [labelsAt, heq, Ne.symm heq]

theorem labelsAt_placed (t : JumpTable) (n step : Nat) :
    (⟨t.placed n⟩ : JumpTable).labelsAt step = if step < n then t.labelsAt step else [] := by
  induction n with
  | zero => rfl
  | succ n ih =>
      have hsplit : (⟨t.placed (n + 1)⟩ : JumpTable).labelsAt step
          = (⟨t.placed n⟩ : JumpTable).labelsAt step
            ++ (⟨(t.labelsAt n).map (·, n)⟩ : JumpTable).labelsAt step := by
        simp [labelsAt, placed_succ]
      rw [hsplit, ih, labelsAt_map]
      rcases Nat.lt_trichotomy step n with hlt | rfl | hgt
      · simp [hlt, Nat.lt_succ_of_lt hlt, Nat.ne_of_lt hlt]
      · simp
      · have hno : ¬ step < n + 1 := by omega
        simp [hno, Nat.not_lt.mpr (Nat.le_of_lt hgt), Nat.ne_of_gt hgt]

/-- A new step has new labels. -/
theorem Distinct.labelsAt_fresh (h : t.Distinct) :
    ∀ label ∈ t.labelsAt n, label ∉ (t.placed n).map (·.1) := by
  intro label hlabel hmem
  obtain ⟨⟨label', step⟩, hplaced, rfl⟩ := List.mem_map.mp hmem
  obtain ⟨hlt, hentry⟩ := mem_placed.mp hplaced
  rw [h.step_unique hentry (mem_labelsAt.mp hlabel)] at hlt
  exact Nat.lt_irrefl _ hlt

theorem Distinct.labelsAt_nodup (h : t.Distinct) (step : Nat) : (t.labelsAt step).Nodup :=
  List.Nodup.sublist (List.filter_sublist.map _) h

end JumpTable

/-! ### Assembling the listing -/

namespace Assembly

theorem takeAll_steps {program : Program} {jumps : JumpTable} (h : jumps.Distinct) :
    ∀ n ≤ program.size,
      Draft.takeAll 1 {} ((List.range n).flatMap (statementsAt program jumps))
        = { program := program.extract 0 n, jumps := ⟨jumps.placed n⟩ } := by
  intro n
  induction n with
  | zero =>
      intro _
      simp [Draft.takeAll, JumpTable.placed]
  | succ n ih =>
      intro hn
      have hi : program[n]? = some program[n] := Array.getElem?_eq_getElem hn
      rw [List.range_succ, List.flatMap_append, Draft.takeAll_append, ih (Nat.le_of_succ_le hn)]
      simp only [List.flatMap_cons, List.flatMap_nil, List.append_nil, statementsAt, hi]
      rw [Draft.takeAll_append, Draft.takeAll_labels (h.labelsAt_nodup n) h.labelsAt_fresh]
      have hsize : (program.extract 0 n).size = n := by
        simp only [Array.size_extract]
        omega
      have hpush : (program.extract 0 n).push program[n] = program.extract 0 (n + 1) := by
        simp
      simp only [Draft.takeAll, Draft.take, hsize, hpush, JumpTable.placed_succ]

/-- The statements of a sound program make the program and its jump table by steps. -/
theorem takeAll_statements {program : Program} {jumps : JumpTable} (h : jumps.Distinct) :
    Draft.takeAll 1 {} (statements program jumps)
      = { program, jumps := ⟨jumps.placed (program.size + 1)⟩ } := by
  rw [statements, Draft.takeAll_append, takeAll_steps h _ (Nat.le_refl _), Array.extract_size,
    Draft.takeAll_labels (h.labelsAt_nodup _) h.labelsAt_fresh, JumpTable.placed_succ]

/-- The order of the steps makes no difference to who asks for a label or for a step. -/
theorem placed_alike {program : Program} {jumps : JumpTable} (h : Sound program jumps)
    (hplaced : (⟨jumps.placed (program.size + 1)⟩ : JumpTable).Distinct) :
    (∀ label, (⟨jumps.placed (program.size + 1)⟩ : JumpTable).get? label = jumps.get? label) ∧
    (∀ step, (⟨jumps.placed (program.size + 1)⟩ : JumpTable).labelsAt step
      = jumps.labelsAt step) := by
  constructor
  · intro label
    apply Option.ext
    intro step
    rw [hplaced.get?_eq_some, h.distinct.get?_eq_some]
    show (label, step) ∈ jumps.placed (program.size + 1) ↔ _
    rw [JumpTable.mem_placed]
    constructor
    · intro hmem
      exact hmem.2
    · intro hmem
      exact ⟨Nat.lt_succ_of_le (h.steps _ hmem), hmem⟩
  · intro step
    rw [JumpTable.labelsAt_placed]
    by_cases hlt : step < program.size + 1
    · rw [if_pos hlt]
    · rw [if_neg hlt]
      symm
      rw [List.eq_nil_iff_forall_not_mem]
      intro label hlabel
      have hle : step ≤ program.size := h.steps _ (JumpTable.mem_labelsAt.mp hlabel)
      omega

end Assembly

/-- A listing depends on the program, the step and the labels of the steps. -/
theorem Computer.listing_congr {c c' : Computer} (hprogram : c.program = c'.program)
    (hpc : c.cpu.pc = c'.cpu.pc) (hlabels : ∀ step, c.jumps.labelsAt step = c'.jumps.labelsAt step)
    (start stop : Nat) (breakpoints : Std.ExtTreeSet Nat) :
    c.listing start stop breakpoints = c'.listing start stop breakpoints := by
  have hlines : c.labelLines = c'.labelLines := by
    funext step
    rw [labelLines, labelLines, hlabels]
  have hsteps : c.stepLines breakpoints = c'.stepLines breakpoints := by
    funext step
    rw [stepLines, stepLines, hprogram, hpc, hlines]
  rw [listing, listing, hprogram, hlines, hsteps]

/-- The listing of a whole program that was loaded and stands at some step. -/
def Assembly.listing (a : Assembly) (c : Computer) (pc : Option Nat)
    (breakpoints : Std.ExtTreeSet Nat) : List String :=
  (((c.load a).setPc pc).listing 0 a.program.size breakpoints).map (·.text)

theorem Assembly.listing_congr {a a' : Assembly} (hprogram : a.program = a'.program)
    (hlabels : ∀ step, a.jumps.labelsAt step = a'.jumps.labelsAt step) (c : Computer)
    (pc : Option Nat) (breakpoints : Std.ExtTreeSet Nat) :
    a.listing c pc breakpoints = a'.listing c pc breakpoints := by
  have hlisting : ((c.load a).setPc pc).listing 0 a.program.size breakpoints
      = ((c.load a').setPc pc).listing 0 a.program.size breakpoints := by
    refine Computer.listing_congr ?_ ?_ hlabels 0 _ breakpoints
    · exact hprogram
    · rfl
  rw [listing, listing, hlisting, hprogram]

theorem Assembly.source_listing {a : Assembly} (h : Sound a.program a.jumps) (c : Computer)
    (pc : Option Nat) (breakpoints : Std.ExtTreeSet Nat) :
    Listing.source (a.listing c pc breakpoints)
      = "\n".intercalate ((statements a.program a.jumps).map (·.text)) := by
  have hstatements : (((c.load a).setPc pc).listing 0 a.program.size breakpoints).map
      (·.statement) = statements a.program a.jumps :=
    ((c.load a).setPc pc).listing_statements breakpoints
  have hlegible := legible_statements h
  rw [← hstatements] at hlegible ⊢
  unfold Listing.source listing
  rw [List.map_map, List.map_map]
  congr 1
  apply List.map_congr_left
  intro l hl
  exact ListingLine.bare_text (hlegible _ (List.mem_map.mpr ⟨l, hl, rfl⟩))

/--
**Listing undoes assembling.**

Take the listing of a program that was assembled, with any breakpoints and at any step,
and remove the columns in front of the instructions.  The text assembles to the same
program, and to a jump table that answers every question about a label or a step in the
same way, so its own listing is the same again.
-/
theorem assemble_listing {source : String} {a : Assembly} (h : assemble source = .ok a)
    (c : Computer) (pc : Option Nat) (breakpoints : Std.ExtTreeSet Nat) :
    ∃ a', assemble (Listing.source (a.listing c pc breakpoints)) = .ok a' ∧
      a'.program = a.program ∧
      (∀ label, a'.jumps.get? label = a.jumps.get? label) ∧
      (∀ step, a'.jumps.labelsAt step = a.jumps.labelsAt step) ∧
      a'.listing c pc breakpoints = a.listing c pc breakpoints := by
  have hsound := sound_of_assemble h
  have hassemble := assemble_texts (legible_statements hsound)
  rw [takeAll_statements hsound.distinct, ← a.source_listing hsound c pc breakpoints] at hassemble
  obtain ⟨hget, hlabels⟩ := placed_alike hsound (sound_of_assemble hassemble).distinct
  refine ⟨_, hassemble, rfl, hget, hlabels, ?_⟩
  refine listing_congr ?_ hlabels c pc breakpoints
  rfl

/-- Labels that are declared again, that share a step and that stand at the end, and numerals in
need of rewriting. -/
def crowded : String :=
  "z:\n a: # one\nb:\nADD [007]\njump_to 0003\ncopy_to 18446744073709551616\na:\nz:"

theorem assemble_listing_crowded :
    ∃ a a', assemble crowded = .ok a ∧ a.program.size = 3 ∧
      assemble (Listing.source (a.listing {} (some 2) {1, 4})) = .ok a' ∧
      a'.program = a.program := by
  have hsize : ((assemble crowded).toOption.map (·.program.size)) = some 3 := by
    decide +kernel
  cases hassemble : assemble crowded with
  | error fault =>
      rw [hassemble] at hsize
      cases hsize
  | ok a =>
      rw [hassemble] at hsize
      obtain ⟨a', hagain, hprogram, -⟩ := assemble_listing hassemble {} (some 2) {1, 4}
      exact ⟨a, a', rfl, Option.some.inj hsize, hagain, hprogram⟩

end Mailroom
