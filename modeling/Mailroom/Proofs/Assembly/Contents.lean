/-
What a text that assembles says.

Every line of such a text is blank, or declares a label, or is a command.  The commands are the
program, in their order.  The labels of the table are those that are declared, in the order in
which they first appear, and each names the step that it was declared at last: the number of
commands above that line.  A label that comes again is no fault, but there is a warning for it,
with the number of its line and the step that the label named until then.

All of this holds of the lines that have been taken in so far and is kept by the next one, so it
is one invariant (`Told`), one case for each kind of line (`Told.take`) and one induction over the
text (`told_of_readLines`).
-/
import Mathlib.Data.List.Forall2
import Mailroom.Proofs.Assembly.Fault

namespace Mailroom

/-- The name that an instruction holds in place of a number. -/
def Instruction.symbolic? : Instruction → Option String
  | .onTile _ ⟨.label name, _⟩ => some name
  | .jump _ (.label name) => some name
  | _ => none

namespace Assembly

open Text (IsWord SameButCase)

/-! ### The lines of a text -/

/-- The label that a line declares. -/
def Line.label? (raw : List Char) : Option String :=
  match Line.read? (Line.clean raw) with
  | some (.label name) => some name
  | _ => none

/-- The command on a line, as it is written. -/
def Line.command? (raw : List Char) : Option (String × Option Argument) :=
  match Line.read? (Line.clean raw) with
  | some (.command w a) => some (w, a)
  | _ => none

/-- The number of commands on some lines. -/
def commandCount (lines : List (List Char)) : Nat :=
  (lines.filterMap Line.command?).length

/-- The last declaration of the label has `s` commands above it. -/
def LastDeclared (lines : List (List Char)) (name : String) (s : Nat) : Prop :=
  ∃ before raw after, lines = before ++ raw :: after ∧ Line.label? raw = some name ∧
    (∀ raw' ∈ after, Line.label? raw' ≠ some name) ∧ commandCount before = s

/-- A line declares a label that lines above it have declared, which names the old step there. -/
def Redeclared (lines : List (List Char)) (r : Redefinition) : Prop :=
  ∃ before raw after, lines = before ++ raw :: after ∧ Line.label? raw = some r.label ∧
    r.line = before.length + 1 ∧ LastDeclared before r.label r.oldStep

/-- The command spells the instruction. -/
def Spelled (command : String × Option Argument) (i : Instruction) : Prop :=
  SameButCase command.1 i.opcode.symbol ∧ Operand command.2 i

/-- The labels that were declared once more, as far as the text was read. -/
def redefinitions (source : String) : List Redefinition :=
  match draft source with
  | .ok _ d => d.redefinitions.toList
  | .error _ d => d.redefinitions.toList

/-- The warnings about a text are those about its redefinitions. -/
theorem warnings_eq (source : String) :
    (records source).filter (·.level == .warn) = (redefinitions source).map (·.record) := by
  have hwarn : ∀ l : List Redefinition,
      (l.map (·.record)).filter (·.level == .warn) = l.map (·.record) := by
    intro l
    rw [List.filter_eq_self]
    rintro _ hrecord
    obtain ⟨r, -, rfl⟩ := List.mem_map.mp hrecord
    rfl
  unfold records redefinitions
  cases draft source with
  | ok u d =>
      dsimp only
      rw [List.filter_append, hwarn]
      exact List.append_nil _
  | error fault d => exact hwarn _

variable {raw : List Char} {lines front rest : List (List Char)} {d d' : Draft} {name : String}
  {s : Nat} {r : Redefinition}

theorem command?_eq_some {w : String} {a : Option Argument} :
    Line.command? raw = some (w, a) ↔ Line.Spells (cleaned raw) (.command w a) := by
  rw [cleaned, ← read?_iff_spells, Line.command?]
  split
  · next h => simp [h]
  · next hno =>
    simp only [reduceCtorEq, false_iff]
    exact hno w a

/-- What a line is that is not at fault. -/
inductive Kind (raw : List Char) : Option Statement → Prop
  | blank (hlabel : Line.label? raw = none) (hcommand : Line.command? raw = none) : Kind raw none
  | label {name : String} (hlabel : Line.label? raw = some name)
      (hcommand : Line.command? raw = none) : Kind raw (some (.label name))
  | command {command : String × Option Argument} {i : Instruction}
      (hlabel : Line.label? raw = none) (hcommand : Line.command? raw = some command)
      (hspelled : Spelled command i) : Kind raw (some (.instruction i))

theorem kind_of_statement {st : Option Statement} (h : statement? (Line.clean raw) = .ok st) :
    Kind raw st := by
  unfold statement? at h
  split at h
  · next hempty =>
    have hread : Line.read? (Line.clean raw) = none := by
      refine Option.eq_none_iff_forall_ne_some.mpr fun l hl => ?_
      exact not_isEmpty_of_read hl hempty
    cases h
    exact .blank (by rw [Line.label?, hread]) (by rw [Line.command?, hread])
  · split at h
    · cases h
    · next name hread =>
      cases h
      exact .label (by rw [Line.label?, hread]) (by rw [Line.command?, hread])
    · next w a hread =>
      cases hi : instruction w a with
      | error kind =>
          rw [hi] at h
          cases h
      | ok i =>
          rw [hi] at h
          cases h
          have hspelled : Spelled (w, a) i := instruction_eq_ok.mp hi
          exact .command (by rw [Line.label?, hread]) (by rw [Line.command?, hread]) hspelled

/-! ### One more line -/

theorem eraseDups_concat (l : List String) (x : String) :
    (l ++ [x]).eraseDups = if x ∈ l then l.eraseDups else l.eraseDups ++ [x] := by
  rw [List.eraseDups_append]
  split
  · next h => simp [List.removeAll, h]
  · next h => simp [List.removeAll, h, List.eraseDups_cons]

/-- A line that declares the label becomes its last declaration. -/
theorem lastDeclared_concat_self (h : Line.label? raw = some name) :
    LastDeclared (lines ++ [raw]) name s ↔ commandCount lines = s := by
  constructor
  · rintro ⟨before, raw', after, hlines, -, hafter, hcount⟩
    rcases concat_eq_append_cons.mp hlines with ⟨-, rfl, -⟩ | ⟨back, rfl, -⟩
    · exact hcount
    · exact absurd h (hafter raw (by simp))
  · intro hcount
    exact ⟨lines, raw, [], rfl, h, by simp, hcount⟩

/-- Any other line leaves the last declaration where it is. -/
theorem lastDeclared_concat (h : Line.label? raw ≠ some name) :
    LastDeclared (lines ++ [raw]) name s ↔ LastDeclared lines name s := by
  constructor
  · rintro ⟨before, raw', after, hlines, hlabel, hafter, hcount⟩
    rcases concat_eq_append_cons.mp hlines with ⟨-, -, rfl⟩ | ⟨back, rfl, rfl⟩
    · exact absurd hlabel h
    · exact ⟨before, raw', back, rfl, hlabel, (List.forall_mem_append.mp hafter).1, hcount⟩
  · rintro ⟨before, raw', after, rfl, hlabel, hafter, hcount⟩
    refine ⟨before, raw', after ++ [raw], by simp, hlabel, ?_, hcount⟩
    rw [List.forall_mem_append, List.forall_mem_singleton]
    exact ⟨hafter, h⟩

theorem redeclared_concat :
    Redeclared (lines ++ [raw]) r ↔ Redeclared lines r ∨
      Line.label? raw = some r.label ∧ r.line = lines.length + 1 ∧
        LastDeclared lines r.label r.oldStep := by
  constructor
  · rintro ⟨before, raw', after, hlines, hlabel, hline, hlast⟩
    rcases concat_eq_append_cons.mp hlines with ⟨-, rfl, rfl⟩ | ⟨back, rfl, rfl⟩
    · exact .inr ⟨hlabel, hline, hlast⟩
    · exact .inl ⟨before, raw', back, rfl, hlabel, hline, hlast⟩
  · rintro (⟨before, raw', after, rfl, hlabel, hline, hlast⟩ | ⟨hlabel, hline, hlast⟩)
    · exact ⟨before, raw', after ++ [raw], by simp, hlabel, hline, hlast⟩
    · exact ⟨lines, raw, [], rfl, hlabel, hline, hlast⟩

theorem Redeclared.line_le (h : Redeclared lines r) : r.line ≤ lines.length := by
  obtain ⟨before, raw, after, rfl, -, hline, -⟩ := h
  rw [hline, List.length_append, List.length_cons]
  omega

theorem Draft.declare_redefinitions (d : Draft) (number : Nat) (label : String) :
    (d.declare number label).redefinitions = match d.jumps.get? label with
      | some old => d.redefinitions.push ⟨number, label, old⟩
      | none => d.redefinitions := by
  rw [← JumpTable.insert_fst d.jumps label d.program.size, declare]
  rcases d.jumps.insert label d.program.size with ⟨_ | old, jumps⟩ <;> rfl

/-! ### All lines -/

/-- What a draft holds of the lines that were taken into it. -/
structure Told (lines : List (List Char)) (d : Draft) : Prop where
  /-- Each command is an instruction of the program. -/
  program : List.Forall₂ Spelled (lines.filterMap Line.command?) d.program.toList
  /-- Each label is in the table, behind those that were declared before it. -/
  labels : d.jumps.labels = (lines.filterMap Line.label?).eraseDups
  /-- It names the step of its last declaration. -/
  steps : ∀ name s, d.jumps.get? name = some s ↔ LastDeclared lines name s
  /-- Each declaration but the first one is noted, -/
  redefined : ∀ r, r ∈ d.redefinitions.toList ↔ Redeclared lines r
  /-- and noted once. -/
  ordered : d.redefinitions.toList.Pairwise (·.line < ·.line)

theorem told_empty : Told [] {} where
  program := .nil
  labels := rfl
  steps := by simp [LastDeclared, JumpTable.get?]
  redefined := by simp [Redeclared]
  ordered := .nil

namespace Told

theorem size_eq (h : Told lines d) : d.program.size = commandCount lines := by
  rw [← Array.length_toList, ← h.program.length_eq, commandCount]

/-- A line that neither declares a label nor is a command adds nothing. -/
theorem blank (h : Told lines d) (hlabel : Line.label? raw = none)
    (hcommand : Line.command? raw = none) : Told (lines ++ [raw]) d where
  program := by simpa [List.filterMap_append, hcommand] using h.program
  labels := by simpa [List.filterMap_append, hlabel] using h.labels
  steps := by
    intro name s
    rw [lastDeclared_concat (by simp [hlabel])]
    exact h.steps name s
  redefined := by
    intro r
    rw [redeclared_concat, h.redefined]
    simp [hlabel]
  ordered := h.ordered

theorem declare (h : Told lines d) (hlabel : Line.label? raw = some name)
    (hcommand : Line.command? raw = none) :
    Told (lines ++ [raw]) (d.declare (lines.length + 1) name) where
  program := by
    rw [Draft.declare_program]
    simpa [List.filterMap_append, hcommand] using h.program
  labels := by
    have hmem : name ∈ d.jumps.labels ↔ name ∈ lines.filterMap Line.label? := by
      rw [h.labels, List.mem_eraseDups]
    have hlabels : (lines ++ [raw]).filterMap Line.label?
        = lines.filterMap Line.label? ++ [name] := by
      simp [List.filterMap_append, hlabel]
    rw [Draft.declare_jumps, JumpTable.labels_insert, hlabels, eraseDups_concat, h.labels]
    simp only [← h.labels, hmem]
  steps := by
    intro name' s
    rw [Draft.declare_jumps, JumpTable.get?_insert]
    by_cases hname : name = name'
    · subst hname
      rw [if_pos rfl, lastDeclared_concat_self hlabel, h.size_eq, Option.some.injEq]
    · rw [if_neg hname, lastDeclared_concat (by simpa [hlabel] using hname)]
      exact h.steps name' s
  redefined := by
    rintro ⟨line, name', old⟩
    rw [redeclared_concat, ← h.redefined, ← h.steps, Draft.declare_redefinitions, hlabel]
    cases hget : d.jumps.get? name with
    | none =>
        simp only [Option.some.injEq, iff_self_or, and_imp]
        rintro rfl - hold
        rw [hget] at hold
        cases hold
    | some step =>
        simp only [Array.toList_push, List.mem_append, List.mem_singleton, Redefinition.mk.injEq,
          Option.some.injEq]
        refine or_congr_right ⟨?_, ?_⟩
        · rintro ⟨rfl, rfl, rfl⟩
          exact ⟨rfl, rfl, hget⟩
        · rintro ⟨rfl, rfl, hold⟩
          rw [hget] at hold
          exact ⟨rfl, rfl, (Option.some.inj hold).symm⟩
  ordered := by
    rw [Draft.declare_redefinitions]
    cases d.jumps.get? name with
    | none => exact h.ordered
    | some step =>
        rw [Array.toList_push, List.pairwise_append]
        refine ⟨h.ordered, List.pairwise_singleton _ _, ?_⟩
        intro r hr r' hr'
        have hle := ((h.redefined r).mp hr).line_le
        rw [List.mem_singleton.mp hr']
        exact Nat.lt_succ_of_le hle

theorem command {command : String × Option Argument} {i : Instruction} (h : Told lines d)
    (hlabel : Line.label? raw = none) (hcommand : Line.command? raw = some command)
    (hspelled : Spelled command i) :
    Told (lines ++ [raw]) { d with program := d.program.push i } where
  program := by
    have hcommands : (lines ++ [raw]).filterMap Line.command?
        = lines.filterMap Line.command? ++ [command] := by
      simp [List.filterMap_append, hcommand]
    rw [hcommands, Array.toList_push]
    exact List.rel_append h.program (.cons hspelled .nil)
  labels := by simpa [List.filterMap_append, hlabel] using h.labels
  steps := by
    intro name s
    rw [lastDeclared_concat (by simp [hlabel])]
    exact h.steps name s
  redefined := by
    intro r
    rw [redeclared_concat, ← h.redefined]
    simp [hlabel]
  ordered := h.ordered

theorem take {st : Option Statement} (h : Told lines d) (hkind : Kind raw st) :
    Told (lines ++ [raw]) (d.take (lines.length + 1) st) := by
  cases hkind with
  | blank hlabel hcommand => exact h.blank hlabel hcommand
  | label hlabel hcommand => exact h.declare hlabel hcommand
  | command hlabel hcommand hspelled => exact h.command hlabel hcommand hspelled

end Told

theorem told_of_readLines :
    ∀ {front : List (List Char)} {d : Draft}, Told front d →
      (readLines (front.length + 1) rest).run d = .ok () d' → Told (front ++ rest) d' := by
  induction rest with
  | nil =>
      intro front d h hrun
      cases hrun
      rw [List.append_nil]
      exact h
  | cons raw rest ih =>
      intro front d h hrun
      obtain ⟨st, hs, hrest⟩ := readLines_cons_eq_ok.mp hrun
      have hnext := h.take (kind_of_statement hs)
      rw [List.append_cons]
      refine ih hnext ?_
      rw [List.length_append, List.length_singleton]
      exact hrest

/-! ### What is in a program -/

theorem word_of_tileRef {name : String} (h : (TileRef.label name).Legible) :
    IsWord name.toList ∧ Numeral.unsigned? name = none := by
  refine ⟨h.word, ?_⟩
  have hreads : TileRef.ofString name = .label name := h.reads
  unfold TileRef.ofString at hreads
  split at hreads
  · cases hreads
  · assumption

theorem word_of_destination {name : String} (h : (Destination.label name).Legible) :
    IsWord name.toList ∧ Numeral.unsigned? name = none := by
  refine ⟨h.word, ?_⟩
  have hreads : Destination.ofString name = .label name := h.reads
  unfold Destination.ofString at hreads
  split at hreads
  · cases hreads
  · assumption

/-- The name in a legible instruction is a word that is no numeral. -/
theorem word_of_symbolic {i : Instruction} (h : i.Legible) (hname : i.symbolic? = some name) :
    IsWord name.toList ∧ Numeral.unsigned? name = none := by
  cases i with
  | noOp | moveFromInbox | moveToOutbox => cases hname
  | onTile action t =>
      obtain ⟨key, indirect⟩ := t
      cases key with
      | index n => cases hname
      | label l =>
          cases hname
          exact word_of_tileRef h
  | jump condition destination =>
      cases destination with
      | step n => cases hname
      | label l =>
          cases hname
          exact word_of_destination h

end Assembly

open Assembly

/-- What is in an assembly, with the warnings about it, told from the lines of the text. -/
structure Assembly.Contains (lines : List (List Char)) (a : Assembly)
    (warnings : List Log.Record) : Prop where
  /-- Each command is one instruction of the program, in the order of the lines. -/
  program : List.Forall₂ Spelled (lines.filterMap Line.command?) a.program.toList
  /-- The labels are those that are declared, in the order of their first declarations, -/
  labels : a.jumps.labels = (lines.filterMap Line.label?).eraseDups
  /-- and each of them is there once. -/
  distinct : a.jumps.labels.Nodup
  /-- A label names the step of its last declaration, -/
  steps : ∀ name s, a.jumps.get? name = some s ↔ LastDeclared lines name s
  /-- which is a step of the program or the one behind the last. -/
  bounded : ∀ name s, a.jumps.get? name = some s → s ≤ a.program.size
  /-- There is one warning for each declaration of a label that was declared above. -/
  warned : ∃ redefinitions : List Redefinition, warnings = redefinitions.map (·.record) ∧
    redefinitions.Pairwise (·.line < ·.line) ∧ ∀ r, r ∈ redefinitions ↔ Redeclared lines r
  /-- Names in instructions are words, and no numerals. -/
  symbolic : ∀ i ∈ a.program, ∀ name, i.symbolic? = some name →
    Text.IsWord name.toList ∧ Numeral.unsigned? name = none

/-- **A text that assembles is told by its lines.** -/
theorem assembled_contents {source : String} {a : Assembly} (h : assemble source = .ok a) :
    Assembly.Contains (Text.lines '\n' source.toList) a
      ((records source).filter (·.level == .warn)) := by
  have hsound := sound_of_assemble h
  obtain ⟨d, hdraft, rfl⟩ := assemble_eq_ok.mp h
  have htold : Told (Text.lines '\n' source.toList) d := told_of_readLines told_empty hdraft
  have hwarnings : (records source).filter (·.level == .warn)
      = d.redefinitions.toList.map (·.record) := by
    rw [warnings_eq, redefinitions, hdraft]
  exact {
    program := htold.program
    labels := htold.labels
    distinct := hsound.distinct
    steps := htold.steps
    bounded := fun name s hget => hsound.steps _ (JumpTable.mem_of_get? hget)
    warned := ⟨_, hwarnings, htold.ordered, htold.redefined⟩
    symbolic := fun i hi name => word_of_symbolic (hsound.legible i hi) }

/-- Two labels name the same step, and each of two is declared again. -/
def relabelled : String :=
  "a:\nb:\r\nCOPY_FROM x # comment\na:\njump_to 18446744073709551616\nend:\nend:"

/-- The number behind the jump is too large to be that of a step. -/
def relabelledAssembly : Assembly where
  program := #[.onTile .copyFrom ⟨.label "x", false⟩, .jump .always (.label "18446744073709551616")]
  jumps := ⟨[("a", 1), ("b", 0), ("end", 2)]⟩

theorem relabelled_contents :
    assemble relabelled = .ok relabelledAssembly ∧
    Assembly.Contains (Text.lines '\n' relabelled.toList) relabelledAssembly
      [⟨.warn, "line 4: label a redefined (was step 0)"⟩,
       ⟨.warn, "line 7: label end redefined (was step 2)"⟩] := by
  have hassemble : assemble relabelled = .ok relabelledAssembly := by decide +kernel
  have hcontents := assembled_contents hassemble
  have hwarnings : (records relabelled).filter (·.level == .warn)
      = [⟨.warn, "line 4: label a redefined (was step 0)"⟩,
         ⟨.warn, "line 7: label end redefined (was step 2)"⟩] := by
    decide +kernel
  rw [hwarnings] at hcontents
  exact ⟨hassemble, hcontents⟩

end Mailroom
