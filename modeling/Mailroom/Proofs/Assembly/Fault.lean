/-
The fault that is reported is the first one there is.

Whether a line is bad depends on the line alone, and `Wrong` says of a cleaned line what is wrong
with it, if anything.  A text has no form of a line, or it has one and its command is refused.
There are no other faults, and no line has two kinds of them.

A text is read line by line and no further than the first bad line, so its number and its text are
what is reported, and neither label lines nor the lines below it have a part in this
(`assemble_reports_first_fault`).
-/
import Mailroom.Proofs.Assembly.Command
import Mailroom.Proofs.Assembly.Draft
import Mailroom.Proofs.Assembly.Grammar

namespace Mailroom

namespace Assembly

open Text (IsWord SameButCase Lowered)

/-! ### Bad lines -/

/-- The line without comment and without blanks at either end. -/
def cleaned (raw : List Char) : String :=
  String.ofList (Line.clean raw)

/-- What is wrong with a cleaned line. -/
inductive Wrong (s : String) : FaultKind → Prop
  | formless (hs : s ≠ "") (h : ∀ l, ¬ Line.Spells s l) : Wrong s .syntaxError
  | refused {w : String} {a : Option Argument} {kind : FaultKind}
      (hs : Line.Spells s (.command w a)) (h : Refused w a kind) : Wrong s kind

/-- Something is wrong with the line. -/
def Bad (raw : List Char) : Prop :=
  ∃ kind, Wrong (cleaned raw) kind

variable {raw cs : List Char} {lines : List (List Char)} {kind kind' : FaultKind} {s : String}
  {f : Fault} {d : Draft} {number : Nat}

theorem read?_iff_spells {l : Line} : Line.read? cs = some l ↔ Line.Spells (String.ofList cs) l := by
  conv_lhs => rw [← String.toList_ofList (l := cs)]
  exact ⟨Line.spells_of_read, Line.read_of_spells⟩

theorem read?_eq_none : Line.read? cs = none ↔ ∀ l, ¬ Line.Spells (String.ofList cs) l := by
  rw [Option.eq_none_iff_forall_ne_some]
  exact forall_congr' fun l => not_congr read?_iff_spells

theorem spells_unique {l l' : Line} (h : Line.Spells s l) (h' : Line.Spells s l') : l = l' :=
  Option.some.inj ((Line.read_of_spells h).symm.trans (Line.read_of_spells h'))

theorem not_spells_empty (l : Line) : ¬ Line.Spells "" l := by
  intro h
  cases Line.read_of_spells h

/-- **A line is at fault exactly if something is wrong with it.** -/
theorem statement?_eq_error :
    statement? cs = .error kind ↔ Wrong (String.ofList cs) kind := by
  unfold statement?
  by_cases hempty : cs = []
  · subst hempty
    constructor
    · rintro ⟨⟩
    · rintro (⟨hs, -⟩ | ⟨hs, -⟩)
      · exact absurd rfl hs
      · exact absurd hs (not_spells_empty _)
  · have hs : String.ofList cs ≠ "" := by
      intro h
      exact hempty (by simpa using congrArg String.toList h)
    rw [if_neg (by simpa using hempty)]
    cases hread : Line.read? cs with
    | none =>
        have hno := read?_eq_none.mp hread
        constructor
        · rintro ⟨⟩
          exact .formless hs hno
        · rintro (_ | ⟨hs', -⟩)
          · rfl
          · exact absurd hs' (hno _)
    | some l =>
        have hspells := read?_iff_spells.mp hread
        cases l with
        | label name =>
            constructor
            · rintro ⟨⟩
            · rintro (⟨-, hno⟩ | ⟨hs', -⟩)
              · exact absurd hspells (hno _)
              · cases spells_unique hspells hs'
        | command w a =>
            show (instruction w a).map _ = _ ↔ _
            have herror : (instruction w a).map (fun i => some (Statement.instruction i))
                = .error kind ↔ instruction w a = .error kind := by
              cases instruction w a <;> simp [Except.map]
            rw [herror, instruction_eq_error]
            constructor
            · exact .refused hspells
            · rintro (⟨-, hno⟩ | ⟨hs', h⟩)
              · exact absurd hspells (hno _)
              · cases spells_unique hspells hs'
                exact h

/-- No line has two kinds of faults. -/
theorem Wrong.unique (h : Wrong s kind) (h' : Wrong s kind') : kind = kind' := by
  rw [← String.ofList_toList (s := s), ← statement?_eq_error] at h h'
  rw [h] at h'
  exact Except.error.inj h'

/-- A line that declares a label is never bad. -/
theorem not_wrong_label {w : String} (hw : IsWord w.toList) : ¬ Wrong (w ++ ":") kind := by
  have hlabel : Line.Spells (w ++ ":") (.label w) := .label hw
  rintro (⟨-, hno⟩ | ⟨hs, -⟩)
  · exact hno _ hlabel
  · cases spells_unique hlabel hs

theorem not_bad_of_ok {s : Option Statement} (h : statement? (Line.clean raw) = .ok s) :
    ¬ Bad raw := by
  rintro ⟨kind, hwrong⟩
  rw [cleaned, ← statement?_eq_error, h] at hwrong
  cases hwrong

/-! ### The first of them -/

/-- The fault is that of the first bad line, where the lines are counted from `number` on. -/
def FirstFault (number : Nat) (lines : List (List Char)) (f : Fault) : Prop :=
  ∃ before raw after, lines = before ++ raw :: after ∧ (∀ raw' ∈ before, ¬ Bad raw') ∧
    f.line = number + before.length ∧ f.text = cleaned raw ∧ Wrong f.text f.kind

theorem firstFault_cons_of_bad {rest : List (List Char)} (h : Wrong (cleaned raw) kind) :
    FirstFault number (raw :: rest) f ↔ f = ⟨kind, number, cleaned raw⟩ := by
  constructor
  · rintro ⟨before, raw', after, hlines, hbefore, hline, htext, hwrong⟩
    cases before with
    | nil =>
        cases hlines
        obtain ⟨kind', line, text⟩ := f
        obtain rfl : text = cleaned raw := htext
        rw [show line = number from hline, show kind' = kind from hwrong.unique h]
    | cons first before =>
        cases hlines
        exact absurd ⟨kind, h⟩ (hbefore raw List.mem_cons_self)
  · rintro rfl
    exact ⟨[], raw, rest, rfl, by simp, rfl, rfl, h⟩

theorem firstFault_cons_of_not_bad {rest : List (List Char)} (h : ¬ Bad raw) :
    FirstFault number (raw :: rest) f ↔ FirstFault (number + 1) rest f := by
  constructor
  · rintro ⟨before, raw', after, hlines, hbefore, hline, htext, hwrong⟩
    cases before with
    | nil =>
        cases hlines
        exact absurd ⟨f.kind, htext ▸ hwrong⟩ h
    | cons first before =>
        cases hlines
        refine ⟨before, raw', after, rfl, (List.forall_mem_cons.mp hbefore).2, ?_, htext, hwrong⟩
        rw [hline, List.length_cons]
        omega
  · rintro ⟨before, raw', after, rfl, hbefore, hline, htext, hwrong⟩
    refine ⟨raw :: before, raw', after, rfl, List.forall_mem_cons.mpr ⟨h, hbefore⟩, ?_, htext,
      hwrong⟩
    rw [hline, List.length_cons]
    omega

/-- Reading stops at the first bad line. -/
theorem readLines_eq_error :
    ∀ {number : Nat} {d : Draft}, (∃ d', (readLines number lines).run d = .error f d') ↔
      FirstFault number lines f := by
  induction lines with
  | nil =>
      intro number d
      constructor
      · rintro ⟨d', hrun⟩
        cases hrun
      · rintro ⟨before, raw, after, hlines, -⟩
        simp at hlines
  | cons raw rest ih =>
      intro number d
      rw [readLines_cons_run]
      cases hs : statement? (Line.clean raw) with
      | error kind =>
          rw [firstFault_cons_of_bad (statement?_eq_error.mp hs)]
          constructor
          · rintro ⟨d', hrun⟩
            cases hrun
            rfl
          · rintro rfl
            exact ⟨d, rfl⟩
      | ok s =>
          rw [firstFault_cons_of_not_bad (not_bad_of_ok hs)]
          exact ih

theorem assemble_eq_error {source : String} :
    assemble source = .error f ↔ FirstFault 1 (Text.lines '\n' source.toList) f := by
  rw [← readLines_eq_error (d := {})]
  show _ ↔ ∃ d', draft source = .error f d'
  unfold assemble
  cases draft source with
  | ok u d => simp
  | error fault d => simp [eq_comm]

/-- Of the lines, those from the first bad one on decide nothing. -/
theorem FirstFault.of_take {lines' : List (List Char)} (h : FirstFault 1 lines f)
    (htake : lines'.take f.line = lines.take f.line) : FirstFault 1 lines' f := by
  obtain ⟨before, raw, after, rfl, hbefore, hline, htext, hwrong⟩ := h
  have hupTo : (before ++ raw :: after).take f.line = before ++ [raw] := by
    rw [hline, Nat.add_comm, List.take_length_add_append]
    rfl
  refine ⟨before, raw, lines'.drop f.line, ?_, hbefore, hline, htext, hwrong⟩
  calc lines' = lines'.take f.line ++ lines'.drop f.line := (List.take_append_drop _ _).symm
    _ = before ++ [raw] ++ lines'.drop f.line := by rw [htake, hupTo]
    _ = before ++ raw :: lines'.drop f.line := by rw [List.append_assoc, List.singleton_append]

/-- Among some lines of which one is bad there is a first bad one. -/
theorem exists_firstFault :
    ∀ {number : Nat}, (∃ f, FirstFault number lines f) ↔ ∃ raw ∈ lines, Bad raw := by
  induction lines with
  | nil =>
      intro number
      constructor
      · rintro ⟨f, before, raw, after, hlines, -⟩
        simp at hlines
      · rintro ⟨raw, hmem, -⟩
        cases hmem
  | cons raw rest ih =>
      intro number
      by_cases hbad : Bad raw
      · obtain ⟨kind, hwrong⟩ := id hbad
        simp only [firstFault_cons_of_bad hwrong]
        exact ⟨fun _ => ⟨raw, List.mem_cons_self, hbad⟩, fun _ => ⟨_, rfl⟩⟩
      · simp only [firstFault_cons_of_not_bad hbad, ih, List.mem_cons, exists_eq_or_imp, hbad,
          false_or]

end Assembly

open Assembly Text

/--
**Assembling reports the first bad line and nothing else.**  A text is refused if and only if one
of its lines is bad, and then what is wrong with the first of them is reported, with its number
and its cleaned text.  No line has two kinds of faults, a line that declares a label has none, and
the lines below the first bad one can be any others.  That a symbol may be written in capital
letters means those of ASCII: to fold the letters of all scripts makes no other word a symbol.
-/
theorem assemble_reports_first_fault (source : String) :
    (∀ f, assemble source = .error f ↔ FirstFault 1 (lines '\n' source.toList) f) ∧
    ((∃ f, assemble source = .error f) ↔ ∃ raw ∈ lines '\n' source.toList, Bad raw) ∧
    (∀ s kind kind', Wrong s kind → Wrong s kind' → kind = kind') ∧
    (∀ (w : String) kind, IsWord w.toList → ¬ Wrong (w ++ ":") kind) ∧
    (∀ f (source' : String), assemble source = .error f →
      (lines '\n' source'.toList).take f.line = (lines '\n' source.toList).take f.line →
      assemble source' = .error f) ∧
    ∀ (w : String) small (op : Opcode), Lowered w.toList small →
      (small = op.symbol.toList ↔ SameButCase w op.symbol) := by
  refine ⟨fun f => assemble_eq_error, ?_, fun s kind kind' => Wrong.unique,
    fun w kind => not_wrong_label, ?_, fun w small op => Opcode.lowered_eq_symbol⟩
  · simp only [assemble_eq_error, exists_firstFault]
  · intro f source' hfault htake
    exact assemble_eq_error.mpr ((assemble_eq_error.mp hfault).of_take htake)

/-- The third line has brackets around the operand of a jump, and the fourth has no opcode. -/
def derailed : String :=
  "no_op\nstart:\r\n\tjump_to [x] # not a step\nfrobnicate 1"

/-- What is on the fourth line does not matter, and neither does the label on the second. -/
theorem derailed_reported :
    assemble derailed = .error ⟨.syntaxError, 3, "jump_to [x]"⟩ ∧
    (∃ raw ∈ lines '\n' derailed.toList, Bad raw) ∧
    (∀ kind, ¬ Wrong "start:" kind) ∧
    assemble "no_op\nstart:\r\n\tjump_to [x] # not a step\n!!\n" =
      .error ⟨.syntaxError, 3, "jump_to [x]"⟩ := by
  obtain ⟨-, hbad, -, hlabel, hbelow, -⟩ := assemble_reports_first_fault derailed
  have hfault : assemble derailed = .error ⟨.syntaxError, 3, "jump_to [x]"⟩ := by decide +kernel
  have hchars : "start".toList.all isWordChar = true := by decide +kernel
  have hword : IsWord "start".toList := ⟨by decide, List.all_eq_true.mp hchars⟩
  exact ⟨hfault, hbad.mp ⟨_, hfault⟩, fun kind => hlabel "start" kind hword,
    hbelow _ _ hfault (by decide +kernel)⟩

end Mailroom
