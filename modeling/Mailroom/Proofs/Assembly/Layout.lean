/-
Layout that does not change what a text says.

What stands on a line is its text, and around it there may be blanks and a comment.  Lines may end
in one way or the other, and between them there may be lines that say nothing.  A text can be
edited in all of these respects, in any places and any number of times, and it still assembles to
the same, or has the same fault (`layout_keeps_meaning`).  Only the numbers of lines change, and
`Edit` says how: a number that is named in a fault or in a warning moves down with its line.

Letters of an opcode may be written in either case, too.  A fault shows the text of its line,
however, so this goes only for texts that assemble.

An edit of one line leaves what the line contributes (`LineEdit.clean_eq`, `statement?_recased`),
one of the lines leaves what all of them are taken for (`read_edit`), and from there on it is an
induction over the edits.
-/
import Mailroom.Proofs.Assembly.Contents
import Mailroom.Proofs.Assembly.Joining

namespace Mailroom

namespace Assembly

open Text (IsWord SameButCase Whole isBlank isWordChar)

/-! ### Edits -/

/-- Nothing but blanks. -/
def Blank (cs : List Char) : Prop :=
  ∀ c ∈ cs, isBlank c = true

instance : DecidablePred Blank := fun cs =>
  decidable_of_iff (cs.all isBlank = true) List.all_eq_true

/-- What stands before the comment. -/
def uncommented (cs : List Char) : List Char :=
  cs.takeWhile (· != '#')

/-- Nothing but blanks, and maybe a comment behind them. -/
def Silent (cs : List Char) : Prop :=
  Blank (uncommented cs)

instance : DecidablePred Silent := fun cs =>
  inferInstanceAs (Decidable (Blank (uncommented cs)))

/-- Between `x` and `y` the text of the line is over. -/
def Over (x y : List Char) : Prop :=
  '#' ∈ x ∨ Silent y

instance : DecidableRel Over := fun x y =>
  inferInstanceAs (Decidable ('#' ∈ x ∨ Silent y))

/-- Something is added to a line around its text. -/
inductive LineEdit : List Char → List Char → Prop
  | before {x w : List Char} (hx : Blank x) (hw : Blank w) (y : List Char) :
      LineEdit (x ++ y) (x ++ (w ++ y))
  | behind {x y w : List Char} (h : Over x y) (hw : Blank w) : LineEdit (x ++ y) (x ++ (w ++ y))
  | comment {x y : List Char} (h : Over x y) (text : List Char) :
      LineEdit (x ++ y) (x ++ '#' :: (text ++ y))

/-- A line of a text, with what is above it and what is below. -/
structure IsLine (front raw back : List Char) : Prop where
  above : Whole '\n' front
  line : '\n' ∉ raw
  below : ∀ c ∈ back.head?, c = '\n'

/-- The numbers of lines when one more line comes below the first `k`. -/
def inserting (k number : Nat) : Nat :=
  if number ≤ k then number else number + 1

/-- The layout of a text is edited in one place, and its lines get other numbers. -/
inductive Edit : List Char → (Nat → Nat) → List Char → Prop
  | line {front raw raw' back : List Char} (hline : IsLine front raw back) (hline' : '\n' ∉ raw')
      (h : LineEdit raw raw') : Edit (front ++ (raw ++ back)) id (front ++ (raw' ++ back))
  | lineEnd (front back : List Char) :
      Edit (front ++ '\n' :: back) id (front ++ '\r' :: '\n' :: back)
  /-- A line that says nothing is put above the others. -/
  | inserted {front line : List Char} (hfront : Whole '\n' front) (hline : '\n' ∉ line)
      (h : Silent line) (back : List Char) :
      Edit (front ++ back) (inserting (Text.lines '\n' front).length)
        (front ++ (line ++ '\n' :: back))
  /-- A line that says nothing is put below all others. -/
  | appended {line : List Char} (hline : '\n' ∉ line) (h : Silent line) (text : List Char) :
      Edit text id (text ++ '\n' :: line)

/-- Letters of one opcode change their case. -/
inductive Recase : List Char → List Char → Prop
  | symbol {front x y back : List Char} {w w' : String} {a : Option Argument}
      (hline : IsLine front (x ++ (w.toList ++ y)) back) (hx : Blank x)
      (hcommand : Line.command? (x ++ (w.toList ++ y)) = some (w, a)) (h : SameButCase w w') :
      Recase (front ++ (x ++ (w.toList ++ y) ++ back)) (front ++ (x ++ (w'.toList ++ y) ++ back))

/--
The one text becomes the other in any number of edits, and its lines get other numbers.  Letters
of opcodes may change their case as long as the text assembles.
-/
inductive Edited : String → (Nat → Nat) → String → Prop
  | refl (source : String) : Edited source id source
  | edit {source source' source'' : String} {f g : Nat → Nat} (h : Edited source f source')
      (hedit : Edit source'.toList g source''.toList) : Edited source (g ∘ f) source''
  | recase {source source' source'' : String} {f : Nat → Nat} (h : Edited source f source')
      (hok : ∃ a, assemble source' = .ok a) (hrecase : Recase source'.toList source''.toList) :
      Edited source f source''

/-! ### One line -/

variable {x y w raw raw' front back line : List Char} {f g : Nat → Nat} {number number' : Nat}
  {d : Draft} {lines : List (List Char)}

theorem uncommented_append_of_mem (h : '#' ∈ x) (y : List Char) :
    uncommented (x ++ y) = uncommented x := by
  obtain ⟨front, back, rfl, hfront⟩ := List.eq_append_cons_of_mem h
  have hclear : ∀ c ∈ front, (c != '#') = true := by
    intro c hc
    rw [bne_iff_ne]
    rintro rfl
    exact hfront hc
  unfold uncommented
  rw [List.append_assoc, List.takeWhile_append_of_pos hclear, List.takeWhile_append_of_pos hclear]
  rfl

theorem uncommented_append (h : '#' ∉ x) (y : List Char) :
    uncommented (x ++ y) = x ++ uncommented y := by
  refine List.takeWhile_append_of_pos fun c hc => ?_
  rw [bne_iff_ne]
  rintro rfl
  exact h hc

theorem uncommented_eq_self (h : '#' ∉ x) : uncommented x = x := by
  have happend := uncommented_append h []
  rw [List.append_nil] at happend
  rw [happend]
  exact List.append_nil x

theorem Blank.not_mem (h : Blank x) {c : Char} (hc : isBlank c = false) : c ∉ x := by
  intro hmem
  rw [h c hmem] at hc
  cases hc

theorem Blank.append (hx : Blank x) (hw : Blank w) : Blank (x ++ w) :=
  List.forall_mem_append.mpr ⟨hx, hw⟩

theorem Silent.clean_eq (h : Silent raw) : Line.clean raw = [] :=
  Text.trim_eq_nil.mpr h

/-- Blanks in front of the text of a line are not part of it. -/
theorem clean_blank_append (hx : Blank x) (y : List Char) :
    Line.clean (x ++ y) = Line.clean y := by
  unfold Line.clean
  rw [← uncommented, uncommented_append (hx.not_mem (by decide)), Text.trim_blank_append hx]
  rfl

/-- What comes when the text of the line is over is not part of it. -/
theorem clean_append_of_over (h : Over x y) : Line.clean (x ++ y) = Line.clean x := by
  unfold Line.clean
  rw [← uncommented, ← uncommented]
  by_cases hx : '#' ∈ x
  · rw [uncommented_append_of_mem hx]
  · have hy : Silent y := h.resolve_left hx
    rw [uncommented_append hx, Text.trim_append_blank _ hy, uncommented_eq_self hx]

/-- **Such an edit leaves the text of the line as it is.** -/
theorem LineEdit.clean_eq (h : LineEdit raw raw') : Line.clean raw' = Line.clean raw := by
  cases h with
  | before hx hw y => rw [clean_blank_append hx, clean_blank_append hx, clean_blank_append hw]
  | @behind x y w h hw =>
      have hover : Over x (w ++ y) := by
        refine h.imp_right fun hy => ?_
        rw [Silent, uncommented_append (hw.not_mem (by decide))]
        exact hw.append hy
      rw [clean_append_of_over hover, clean_append_of_over h]
  | @comment x y h text =>
      have hover : Over x ('#' :: (text ++ y)) := by
        refine .inr fun c hc => ?_
        cases hc
      rw [clean_append_of_over hover, clean_append_of_over h]

/-- A command is a word, and it is read with any other word in its place. -/
theorem read?_command_append {w : String} {a : Option Argument} {rest : List Char}
    (h : Line.read? (w.toList ++ rest) = some (.command w a)) {w' : String}
    (hw' : IsWord w'.toList) : Line.read? (w'.toList ++ rest) = some (.command w' a) := by
  cases a with
  | none =>
      obtain ⟨-, hchars⟩ := Line.read?_eq_symbol.mp h
      obtain rfl : rest = [] := by simpa using hchars
      exact Line.read?_eq_symbol.mpr ⟨hw', List.append_nil _⟩
  | some a =>
      obtain ⟨-, ha, gap, hgap, hchars⟩ := Line.read?_eq_command.mp h
      obtain rfl : rest = gap ++ a.chars := List.append_cancel_left hchars
      exact Line.read?_eq_command.mpr ⟨hw', ha, gap, hgap, rfl⟩

theorem isWord_of_command {w : String} {a : Option Argument} {cs : List Char}
    (h : Line.read? cs = some (.command w a)) : IsWord w.toList := by
  cases a with
  | none => exact (Line.read?_eq_symbol.mp h).1
  | some a => exact (Line.read?_eq_command.mp h).1

theorem read?_of_command {w : String} {a : Option Argument}
    (h : Line.command? raw = some (w, a)) :
    Line.read? (Line.clean raw) = some (.command w a) := by
  rw [command?_eq_some, cleaned, ← read?_iff_spells] at h
  exact h

theorem statement?_of_command {w : String} {a : Option Argument} {cs : List Char}
    (h : Line.read? cs = some (.command w a)) :
    statement? cs = (instruction w a).map fun i => some (.instruction i) := by
  rw [statement?, if_neg (not_isEmpty_of_read h), h]

/-- Behind blanks, the text of a line that begins with a word keeps this word. -/
theorem clean_word (hx : Blank x) {cs : List Char} (hcs : IsWord cs) (y : List Char) :
    Line.clean (x ++ (cs ++ y)) = cs ++ ((uncommented y).reverse.dropWhile isBlank).reverse := by
  have hclear : '#' ∉ cs := hcs.not_mem (by decide)
  rw [clean_blank_append hx, Line.clean, ← uncommented, uncommented_append hclear,
    hcs.trim_append]

/-- **A command says the same in letters of either case.** -/
theorem statement?_recased {w w' : String} {a : Option Argument} (hx : Blank x)
    (hcommand : Line.command? (x ++ (w.toList ++ y)) = some (w, a)) (h : SameButCase w w') :
    statement? (Line.clean (x ++ (w'.toList ++ y)))
      = statement? (Line.clean (x ++ (w.toList ++ y))) := by
  have hread := read?_of_command hcommand
  have hw : IsWord w.toList := isWord_of_command hread
  have hw' : IsWord w'.toList := h.isWord hw
  rw [clean_word hx hw] at hread
  have hread' := read?_command_append hread hw'
  have hsame : instruction w' a = instruction w a := by
    rw [instruction, instruction, Opcode.ofSymbol?_congr h]
  rw [clean_word hx hw, clean_word hx hw', statement?_of_command hread,
    statement?_of_command hread', hsame]

/-! ### All lines -/

/-- What becomes of the lines of a text. -/
def read (text : List Char) : EStateM.Result Fault Draft Unit :=
  (readLines 1 (Text.lines '\n' text)).run {}

/-- A line counts by what it says. -/
theorem readLines_congr (h : Line.clean raw' = Line.clean raw) (front back : List (List Char)) :
    (readLines number (front ++ raw' :: back)).run d
      = (readLines number (front ++ raw :: back)).run d := by
  simp only [readLines_append_run, readLines_cons_run, h]

/-- If all lines can be read, each counts by what it contributes. -/
theorem readLines_replace {d' : Draft} {front back : List (List Char)}
    (h : statement? (Line.clean raw') = statement? (Line.clean raw))
    (hok : (readLines number (front ++ raw :: back)).run d = .ok () d') :
    (readLines number (front ++ raw' :: back)).run d = .ok () d' := by
  obtain ⟨e, hfront, hback⟩ := readLines_append_eq_ok.mp hok
  obtain ⟨s, hs, hrest⟩ := readLines_cons_eq_ok.mp hback
  exact readLines_append_eq_ok.mpr ⟨e, hfront, readLines_cons_eq_ok.mpr ⟨s, h.trans hs, hrest⟩⟩

/-- A line that says nothing only counts as a line. -/
theorem readLines_silent (h : Silent raw) (rest : List (List Char)) :
    (readLines number (raw :: rest)).run d = (readLines (number + 1) rest).run d := by
  rw [readLines_cons_run, h.clean_eq]
  rfl

/-- A line is read and then what is below it, also if it is the empty rest of a text. -/
theorem readLines_line (hline : '\n' ∉ raw) (hback : ∀ c ∈ back.head?, c = '\n') :
    (readLines number (Text.lines '\n' (raw ++ back))).run d
      = (readLines number (raw :: Text.lines '\n' back.tail)).run d := by
  cases back with
  | nil =>
      rw [List.append_nil]
      cases raw with
      | nil => exact (readLines_silent (by simp [Silent, uncommented, Blank]) []).symm
      | cons c raw =>
          rw [Text.lines_of_not_mem hline (List.cons_ne_nil c raw)]
          rfl
  | cons c back =>
      obtain rfl : c = '\n' := hback c rfl
      rw [Text.lines_append_feed hline]
      rfl

theorem read_line (h : IsLine front raw back) :
    read (front ++ (raw ++ back)) = (readLines 1
      (Text.lines '\n' front ++ raw :: Text.lines '\n' back.tail)).run {} := by
  rw [read, Text.lines_whole_append h.above, readLines_append_run, readLines_append_run]
  simp only [readLines_line h.line h.below]

/-! ### Other numbers -/

/-- The fault on another line. -/
def Fault.moved (f : Nat → Nat) (fault : Fault) : Fault :=
  { fault with line := f fault.line }

/-- The redefinition on another line. -/
def Redefinition.moved (f : Nat → Nat) (r : Redefinition) : Redefinition :=
  { r with line := f r.line }

/-- The draft with its redefinitions on other lines. -/
def Draft.moved (f : Nat → Nat) (d : Draft) : Draft :=
  { d with redefinitions := d.redefinitions.map (·.moved f) }

/-- What becomes of the lines if they are others. -/
def movedResult (f : Nat → Nat) :
    EStateM.Result Fault Draft Unit → EStateM.Result Fault Draft Unit
  | .ok u d => .ok u (d.moved f)
  | .error fault d => .error (fault.moved f) (d.moved f)

theorem Draft.moved_empty (f : Nat → Nat) : ({} : Draft).moved f = {} := by
  simp [Draft.moved]

theorem Draft.moved_id (d : Draft) : d.moved id = d := by
  simp [Draft.moved, Redefinition.moved]

theorem movedResult_id (r : EStateM.Result Fault Draft Unit) : movedResult id r = r := by
  cases r with
  | ok u d => rw [movedResult, Draft.moved_id]
  | error fault d =>
      rw [movedResult, Draft.moved_id]
      rfl

theorem Draft.moved_moved (g f : Nat → Nat) (d : Draft) :
    (d.moved f).moved g = d.moved (g ∘ f) := by
  simp [Draft.moved, Redefinition.moved, Function.comp_def]

theorem movedResult_movedResult (g f : Nat → Nat) (r : EStateM.Result Fault Draft Unit) :
    movedResult g (movedResult f r) = movedResult (g ∘ f) r := by
  cases r with
  | ok u d => simp only [movedResult, Draft.moved_moved]
  | error fault d =>
      simp only [movedResult, Draft.moved_moved]
      rfl

theorem Draft.take_moved (d : Draft) (number : Nat) (s : Option Statement) :
    (d.moved f).take (f number) s = (d.take number s).moved f := by
  rcases s with _ | ⟨name⟩ | ⟨i⟩
  · rfl
  · show (d.moved f).declare (f number) name = (d.declare number name).moved f
    have hjumps : (d.moved f).jumps.insert name (d.moved f).program.size
        = d.jumps.insert name d.program.size := rfl
    unfold Draft.declare
    rw [hjumps]
    rcases d.jumps.insert name d.program.size with ⟨_ | old, jumps⟩
    · rfl
    · simp [Draft.moved, Redefinition.moved]
  · rfl

/-- The same lines with other numbers have the same faults and redefinitions on other lines. -/
theorem readLines_moved :
    ∀ {number number' : Nat} {d : Draft}, (∀ i < lines.length, f (number + i) = number' + i) →
      (readLines number' lines).run (d.moved f)
        = movedResult f ((readLines number lines).run d) := by
  induction lines with
  | nil => intro number number' d _; rfl
  | cons raw rest ih =>
      intro number number' d hf
      have hfirst : f number = number' := hf 0 (by simp)
      have hrest : ∀ i < rest.length, f (number + 1 + i) = number' + 1 + i := by
        intro i hi
        rw [Nat.add_right_comm number, Nat.add_right_comm number']
        exact hf (i + 1) (Nat.succ_lt_succ hi)
      rw [readLines_cons_run, readLines_cons_run]
      cases statement? (Line.clean raw) with
      | error kind =>
          simp only [movedResult, Fault.moved, hfirst]
      | ok s =>
          have htake := d.take_moved (f := f) number s
          rw [hfirst] at htake
          simp only [htake]
          exact ih hrest

/-! ### Edits do not change what is read -/

theorem isLine_above_feed (habove : Whole '\n' front) (hline : '\n' ∉ raw) (rest : List Char) :
    IsLine front raw ('\n' :: rest) :=
  ⟨habove, hline, by simp⟩

/-- One more line that says nothing moves those below it. -/
theorem read_inserted (hfront : Whole '\n' front) (hline : '\n' ∉ line) (h : Silent line)
    (back : List Char) :
    read (front ++ (line ++ '\n' :: back))
      = movedResult (inserting (Text.lines '\n' front).length) (read (front ++ back)) := by
  have habove : ∀ i < (Text.lines '\n' front).length,
      inserting (Text.lines '\n' front).length (1 + i) = 1 + i := by
    intro i hi
    rw [inserting, if_pos (by omega)]
  have hbelow : ∀ i < (Text.lines '\n' back).length,
      inserting (Text.lines '\n' front).length ((Text.lines '\n' front).length + 1 + i)
        = (Text.lines '\n' front).length + 1 + 1 + i := by
    intro i _
    rw [inserting, if_neg (by omega)]
    omega
  have hmoved := readLines_moved (d := {}) habove
  rw [Draft.moved_empty] at hmoved
  rw [read, read, Text.lines_whole_append hfront, Text.lines_whole_append hfront,
    Text.lines_append_feed hline, readLines_append_run, readLines_append_run]
  cases hrun : (readLines 1 (Text.lines '\n' front)).run {} with
  | error fault d =>
      rw [hrun] at hmoved
      exact hmoved
  | ok u d =>
      rw [hrun] at hmoved
      have hsame : d = d.moved (inserting (Text.lines '\n' front).length) :=
        (EStateM.Result.ok.inj hmoved).2
      dsimp only
      rw [readLines_silent h, ← readLines_moved hbelow, ← hsame]

/-- One more line at the end moves nothing. -/
theorem read_appended (hline : '\n' ∉ line) (h : Silent line) (text : List Char) :
    read (text ++ '\n' :: line) = read text := by
  obtain ⟨front, last, rfl, hfront, hlast⟩ := Text.exists_whole_append '\n' text
  have hplace : IsLine front last [] := ⟨hfront, hlast, by simp⟩
  have hplace' : IsLine front last ('\n' :: line) := isLine_above_feed hfront hlast line
  have hnothing : ∀ number d, (readLines number (Text.lines '\n' line)).run d = .ok () d := by
    intro number d
    cases line with
    | nil => rfl
    | cons c line =>
        rw [Text.lines_of_not_mem hline (List.cons_ne_nil c line), readLines_silent h]
        rfl
  have hread : read (front ++ last) = (readLines 1 (Text.lines '\n' front ++ [last])).run {} := by
    have hlast' := read_line hplace
    rw [List.append_nil] at hlast'
    exact hlast'
  rw [List.append_assoc, read_line hplace', hread, List.tail_cons, List.append_cons,
    readLines_append_run]
  simp only [hnothing]
  cases (readLines 1 (Text.lines '\n' front ++ [last])).run {} <;> rfl

/-- **An edit moves lines and does nothing else.** -/
theorem read_edit {text text' : List Char} (h : Edit text f text') :
    read text' = movedResult f (read text) := by
  cases h with
  | @line front raw raw' back hline hline' h =>
      have hplace : IsLine front raw' back := ⟨hline.above, hline', hline.below⟩
      rw [movedResult_id, read_line hline, read_line hplace, readLines_congr h.clean_eq]
  | lineEnd before after =>
      -- the carriage return is a blank behind the last line of what is before
      obtain ⟨front, raw, rfl, hfront, hraw⟩ := Text.exists_whole_append '\n' before
      have hplace := isLine_above_feed hfront hraw after
      have hraw' : '\n' ∉ raw ++ ['\r'] := by simpa using hraw
      have hplace' := isLine_above_feed hfront hraw' after
      have hreturn : Over raw ['\r'] := .inr (by decide)
      have hread := read_line hplace'
      rw [readLines_congr (clean_append_of_over hreturn), ← read_line hplace] at hread
      rw [movedResult_id]
      simpa using hread
  | inserted hfront hline h back => exact read_inserted hfront hline h back
  | appended hline h => rw [movedResult_id, read_appended hline h]

/-- In a text that can be read, the case of a symbol does not matter. -/
theorem read_recase {text text' : List Char} (h : Recase text text') (hok : read text = .ok () d) :
    read text' = .ok () d := by
  cases h with
  | @symbol front x y back w w' a hline hx hcommand h =>
      have hw : IsWord w.toList := isWord_of_command (read?_of_command hcommand)
      have hfeed : '\n' ∉ x ++ (w'.toList ++ y) := by
        have hold := hline.line
        simp only [List.mem_append, not_or] at hold ⊢
        exact ⟨hold.1, (h.isWord hw).not_mem (by decide), hold.2.2⟩
      have hplace : IsLine front (x ++ (w'.toList ++ y)) back := ⟨hline.above, hfeed, hline.below⟩
      rw [read_line hline] at hok
      rw [read_line hplace]
      exact readLines_replace (statement?_recased hx hcommand h) hok

/-- Edits move lines and do nothing else. -/
theorem draft_edited {source source' : String} (h : Edited source f source') :
    draft source' = movedResult f (draft source) := by
  induction h with
  | refl => rw [movedResult_id]
  | edit h hedit ih =>
      have hread := read_edit hedit
      rw [← movedResult_movedResult, ← ih]
      exact hread
  | recase h hok hrecase ih =>
      obtain ⟨a, hok⟩ := hok
      obtain ⟨d, hdraft, -⟩ := assemble_eq_ok.mp hok
      rw [← ih, hdraft]
      exact read_recase hrecase hdraft

end Assembly

open Assembly

/--
**Layout does not change what a text says.**  After edits in any number and in any places, a text
assembles to the same program with the same labels, or its fault is of the same kind and shows the
same text, on the line that this has become.  The warnings are the same, too, on their lines.
-/
theorem layout_keeps_meaning {source source' : String} {f : Nat → Nat}
    (h : Edited source f source') :
    assemble source' = (assemble source).mapError (·.moved f) ∧
    (records source').filter (·.level == .warn)
      = (redefinitions source).map fun r => (r.moved f).record := by
  have hdraft := draft_edited h
  rw [warnings_eq, assemble, assemble, redefinitions, redefinitions, hdraft]
  cases draft source with
  | ok u d => exact ⟨rfl, by simp [movedResult, Draft.moved]⟩
  | error fault d => exact ⟨rfl, by simp [movedResult, Draft.moved]⟩

/-- A text without blanks at the ends of its lines, in which a label is declared twice. -/
def terse : String :=
  "a:\nadd x\na:"

/-- The same text after edits of each kind. -/
def roomy : String :=
  "# sum\n a:\r\nADD x#\na:\n"

/-- What both of them assemble to. -/
def terseAssembly : Assembly where
  program := #[.onTile .add ⟨.label "x", false⟩]
  jumps := ⟨[("a", 1)]⟩

theorem roomy_of_terse : Edited terse (inserting 0) roomy := by
  have hsilent : Silent "# sum".toList := by decide
  have hinserted : Edit terse.toList (inserting 0) "# sum\na:\nadd x\na:".toList :=
    .inserted (.inl rfl) (by decide) hsilent terse.toList
  have hlabel : IsLine "# sum\n".toList "a:".toList "\nadd x\na:".toList :=
    isLine_above_feed (.inr ⟨"# sum".toList, rfl⟩) (by decide) "add x\na:".toList
  have hindented : LineEdit "a:".toList " a:".toList :=
    .before (x := []) (w := [' ']) (by decide) (by decide) "a:".toList
  have hbefore : Edit "# sum\na:\nadd x\na:".toList id "# sum\n a:\nadd x\na:".toList :=
    .line hlabel (by decide) hindented
  have hreturn : Edit "# sum\n a:\nadd x\na:".toList id "# sum\n a:\r\nadd x\na:".toList :=
    .lineEnd "# sum\n a:".toList "add x\na:".toList
  have hsmall : IsLine "# sum\n a:\r\n".toList ([] ++ ("add".toList ++ " x".toList))
      "\na:".toList :=
    isLine_above_feed (.inr ⟨"# sum\n a:\r".toList, rfl⟩) (by decide) "a:".toList
  have hcapitals : Recase "# sum\n a:\r\nadd x\na:".toList
      "# sum\n a:\r\nADD x\na:".toList :=
    .symbol hsmall (by decide) (w := "add") (a := some ⟨"x", false⟩) (by decide +kernel)
      (show Text.SameButCase "add" "ADD" by decide)
  have hsum : IsLine "# sum\n a:\r\n".toList "ADD x".toList "\na:".toList :=
    isLine_above_feed (.inr ⟨"# sum\n a:\r".toList, rfl⟩) (by decide) "a:".toList
  have hcommented : LineEdit "ADD x".toList "ADD x#".toList :=
    .comment (x := "ADD x".toList) (y := []) (by decide) []
  have hcomment : Edit "# sum\n a:\r\nADD x\na:".toList id
      "# sum\n a:\r\nADD x#\na:".toList :=
    .line hsum (by decide) hcommented
  have hempty : Silent [] := by decide
  have happended : Edit "# sum\n a:\r\nADD x#\na:".toList id roomy.toList :=
    .appended (by decide) hempty _
  have hreturned := ((Edited.refl terse).edit hinserted |>.edit hbefore).edit hreturn
  have hok : assemble "# sum\n a:\r\nadd x\na:" = .ok terseAssembly := by decide +kernel
  exact ((hreturned.recase ⟨_, hok⟩ hcapitals).edit hcomment).edit happended

/-- The warning comes on the line below the one that it came on, and so does a fault. -/
theorem layout_of_roomy :
    Edited terse (inserting 0) roomy ∧ assemble roomy = .ok terseAssembly ∧
    (records roomy).filter (·.level == .warn)
      = [⟨.warn, "line 4: label a redefined (was step 0)"⟩] ∧
    assemble "\t\njump_to" = .error ⟨.argumentRequired, 2, "jump_to"⟩ := by
  obtain ⟨hassemble, hwarnings⟩ := layout_keeps_meaning roomy_of_terse
  have hterse : assemble terse = .ok terseAssembly := by decide +kernel
  have hredefined : redefinitions terse = [⟨3, "a", 0⟩] := by decide +kernel
  have hblank : Silent ['\t'] := by decide
  have hinserted : Edit "jump_to".toList (inserting 0) "\t\njump_to".toList :=
    .inserted (.inl rfl) (by decide) hblank "jump_to".toList
  have hfault : assemble "jump_to" = .error ⟨.argumentRequired, 1, "jump_to"⟩ := by decide +kernel
  have hmoved := (layout_keeps_meaning ((Edited.refl "jump_to").edit hinserted)).1
  refine ⟨roomy_of_terse, ?_, ?_, ?_⟩
  · rw [hassemble, hterse]
    rfl
  · rw [hwarnings, hredefined]
    decide +kernel
  · rw [hmoved, hfault]
    rfl

end Mailroom
