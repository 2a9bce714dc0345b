/-
Only the commands that a script means matter.

A blank line repeats the last command that was understood, however long ago that was, and a
line that is not understood is complained about and forgotten.  So a script can be written
out before the run (`rewrite`): every line that is understood without the blanks around it,
each blank line replaced by the line it repeats, and all other lines left out.

The two sessions go through the run side by side.  They are `Alike` as long as they differ in
their consoles only, the one script is the other one written out, and the one transcript is
the other one without what has been left out.  A menu that reads a line of the one script
reads the line that was made of it in the other (`alike_menu`), so the sessions are matching
hooks, and a run is the same under both (`run_rewritten`).
-/
import Mailroom.Proofs.Computer.Matching
import Mailroom.Proofs.Debugger.Script
import Mailroom.Proofs.Text.Word

namespace Mailroom

namespace Debugger

open Loop (Turns)

/-! ### Lines -/

/-- The line without the blanks around it. -/
def trimmed (line : String) : String :=
  String.ofList (Text.trim line.toList)

/-- The line that is understood: a blank line means `last`, the one understood before it. -/
def understood (last : Option String) (line : String) : Option String :=
  if Text.isBlankLine line then last
  else match Command.read line with
    | .ok _ => some (trimmed line)
    | .error _ => none

/-- What is shown for a line that is not understood, which for a blank line is nothing. -/
def complaint (line : String) : List String :=
  if Text.isBlankLine line then []
  else match Command.read line with
    | .ok _ => []
    | .error e => [e.message]

/-- The script written out, with `last` as the line to be repeated at its beginning. -/
def rewrite (last : Option String) : List String → List String
  | [] => []
  | line :: rest =>
    match understood last line with
    | some command => command :: rewrite (some command) rest
    | none => rewrite last rest

theorem isBlankLine_trimmed (line : String) :
    Text.isBlankLine (trimmed line) = Text.isBlankLine line := by
  rw [Bool.eq_iff_iff, Text.isBlankLine, Text.isBlankLine, List.all_eq_true, List.all_eq_true,
    ← Text.trim_eq_nil, ← Text.trim_eq_nil, trimmed, String.toList_ofList, Text.trim_trim]

theorem read_trimmed (line : String) : Command.read (trimmed line) = Command.read line := by
  simp only [Command.read, trimmed, String.toList_ofList, Text.trim_trim]

/-! ### Commands -/

namespace Session

variable {s s' : Session} {last : Option String} {line l : String} {rest : List String}

/-- The line spells the command by itself. -/
def Spells (line : String) (command : Command) : Prop :=
  Text.isBlankLine line = false ∧ Command.read line = .ok command

theorem meant_of_spells (s : Session) {command : Command} (h : Spells line command) :
    s.meant line = some command := by
  obtain ⟨hblank, hread⟩ := h
  simp only [meant, commandOf, hblank, hread, Bool.false_eq_true, if_false]
  rfl

/-- A line means what the line that is understood spells. -/
theorem meant_of_understood (hlast : Option.Rel Spells last s.lastCommand)
    (h : understood last line = some l) :
    ∃ command, s.meant line = some command ∧ Spells l command := by
  cases hblank : Text.isBlankLine line with
  | true =>
      simp only [understood, hblank, if_true] at h
      subst h
      generalize hcommand : s.lastCommand = lastCommand at hlast
      cases hlast with
      | some hspells =>
          refine ⟨_, ?_, hspells⟩
          simp only [meant, commandOf, hblank, if_true, hcommand]
  | false =>
      simp only [understood, hblank, Bool.false_eq_true, if_false] at h
      cases hread : Command.read line with
      | error e =>
          rw [hread] at h
          cases h
      | ok command =>
          rw [hread] at h
          cases h
          refine ⟨command, meant_of_spells s ⟨hblank, hread⟩, ?_, ?_⟩
          · rw [isBlankLine_trimmed, hblank]
          · rw [read_trimmed, hread]

/-- A line that is not understood is complained about, and that is all. -/
theorem respond_of_not_understood (hlast : Option.Rel Spells last s.lastCommand)
    (h : understood last line = none) (c : Computer) :
    s.respond c line = { lines := complaint line, computer := c, session := s } := by
  cases hblank : Text.isBlankLine line with
  | true =>
      simp only [understood, hblank, if_true] at h
      subst h
      generalize hcommand : s.lastCommand = lastCommand at hlast
      cases hlast
      simp only [respond, commandOf, complaint, hblank, if_true, hcommand]
  | false =>
      simp only [understood, hblank, Bool.false_eq_true, if_false] at h
      cases hread : Command.read line with
      | ok command =>
          rw [hread] at h
          cases h
      | error e =>
          simp only [respond, commandOf, complaint, hblank, Bool.false_eq_true, if_false, hread]
          rfl

end Session

/-! ### Transcripts -/

/--
Two transcripts with a common beginning, and the line that was understood last: the second one
has been made with the script written out, and lacks the lines that were not understood
together with the complaints about them.
-/
inductive Retold (before : Array Entry) : Array Entry → Array Entry → Option String → Prop
  | start : Retold before before before none
  /-- The same lines are shown. -/
  | wrote {t t' : Array Entry} {last : Option String} (h : Retold before t t' last)
      (lines : List String) : Retold before (t ++ shown lines) (t' ++ shown lines) last
  /-- There is no line left to be read. -/
  | closed {t t' : Array Entry} {last : Option String} (h : Retold before t t' last) :
      Retold before (t.push (.read none)) (t'.push (.read none)) last
  /-- A line is understood, and read as what it means. -/
  | read {t t' : Array Entry} {last : Option String} (h : Retold before t t' last)
      {line l : String} (hline : understood last line = some l) :
      Retold before (t.push (.read (some line))) (t'.push (.read (some l))) (some l)
  /-- A line is not understood, and has been left out. -/
  | leftOut {t t' : Array Entry} {last : Option String} (h : Retold before t t' last)
      {line : String} (hline : understood last line = none) :
      Retold before (t.push (.read (some line)) ++ shown (complaint line)) t' last

/-! ### Sessions side by side -/

/-- The second session differs from the first one only in having the script written out. -/
structure Session.Alike (before : Array Entry) (last : Option String) (s s' : Session) : Prop where
  rest : s' = { s with console := s'.console }
  script : s'.console.script = rewrite last s.console.script
  transcript : Retold before s.console.transcript s'.console.transcript last
  lastNotes : s'.console.lastNotes = s.console.lastNotes
  lastCommand : Option.Rel Session.Spells last s.lastCommand

namespace Session

variable {s s' : Session} {before : Array Entry} {last : Option String} {line l : String}
  {rest : List String} {command : Command} {c : Computer}

theorem Alike.write (h : Alike before last s s') (lines : List String) :
    Alike before last (s.write lines) (s'.write lines) where
  rest := by
    rw [h.rest]
    rfl
  script := h.script
  transcript := h.transcript.wrote lines
  lastNotes := h.lastNotes
  lastCommand := h.lastCommand

theorem Alike.closed (h : Alike before last s s') :
    Alike before last (s.read none []) (s'.read none []) where
  rest := by
    rw [h.rest]
    rfl
  script := rfl
  transcript := h.transcript.closed
  lastNotes := h.lastNotes
  lastCommand := h.lastCommand

/-- A line has been understood, and its command is about to be carried out. -/
theorem Alike.read (h : Alike before last s s') (hline : understood last line = some l)
    (hspells : Spells l command) (rest : List String) :
    Alike before (some l) { s.read (some line) rest with lastCommand := some command }
      { s'.read (some l) (rewrite (some l) rest) with lastCommand := some command } where
  rest := by
    rw [h.rest]
    rfl
  script := rfl
  transcript := h.transcript.read hline
  lastNotes := h.lastNotes
  lastCommand := .some hspells

theorem Alike.leftOut (h : Alike before last s s') (hline : understood last line = none)
    (hscript : s.console.script = line :: rest) :
    Alike before last ((s.read (some line) rest).write (complaint line)) s' where
  rest := h.rest
  script := by
    rw [h.script, hscript, rewrite, hline]
    rfl
  transcript := h.transcript.leftOut hline
  lastNotes := h.lastNotes
  lastCommand := h.lastCommand

/-- The same command has the same effect. -/
theorem Alike.execute (h : Alike before last s s') (c : Computer) (command : Command) :
    ∃ session, s'.execute c command = { s.execute c command with session } ∧
      Alike before last (s.execute c command).session session := by
  have heq := execute_congr s c command s'.console s.lastCommand
  rw [← h.rest] at heq
  refine ⟨_, heq, ?_, ?_, ?_, ?_, ?_⟩
  · simp only [execute_lastCommand]
  · rw [execute_console]
    exact h.script
  · rw [execute_console]
    exact h.transcript
  · rw [execute_console]
    exact h.lastNotes
  · rw [execute_lastCommand]
    exact h.lastCommand

/-- The sessions are alike for some line that was understood last. -/
def Beside (before : Array Entry) (s s' : Session) : Prop :=
  ∃ last, Alike before last s s'

/-- **A menu does the same with the script written out.** -/
theorem alike_menu : ∀ (lines : List String) (c : Computer) (notes : List Log.Record)
    {last : Option String} {s s' : Session}, Alike before last s s' → s.console.script = lines →
      (menu c s notes lines).Matches (Beside before) (menu c s' notes (rewrite last lines)) := by
  intro lines
  -- On the lines of the first script: for one that is left out, the second menu does not move.
  induction lines with
  | nil =>
      intro c notes last s s' h _
      exact ⟨rfl, rfl, congrArg (notes ++ ·) h.lastNotes, last, h.closed⟩
  | cons line rest ih =>
      intro c notes last s s' h hscript
      cases hline : understood last line with
      | none =>
          have hrespond := respond_of_not_understood (s := s.read (some line) rest)
            h.lastCommand hline c
          simp only [rewrite, hline, menu, hrespond, List.append_nil]
          exact ih c notes (h.leftOut hline hscript) rfl
      | some l =>
          obtain ⟨command, hmeant, hspells⟩ := meant_of_understood h.lastCommand hline
          have hrespond := respond_of_meant_eq_some (s.read (some line) rest) c hmeant
          have hrespond' := respond_of_meant_eq_some (s'.read (some l) (rewrite (some l) rest)) c
            (meant_of_spells _ hspells)
          obtain ⟨session, hreply, halike⟩ := (h.read hline hspells rest).execute c command
          simp only [rewrite, hline, menu, hrespond, hrespond', hreply]
          generalize hr : Session.execute _ c command = r at halike ⊢
          cases hresume : r.resume with
          | some resume => exact ⟨rfl, rfl, rfl, some l, halike.write r.lines⟩
          | none =>
              refine ih _ _ (halike.write r.lines) ?_
              rw [← hr]
              exact congrArg Console.script (execute_console _ c command)

theorem Alike.opening (h : Alike before last s s') (why : Stop) (c : Computer) :
    Alike before last (s.opening why c) (s'.opening why c) := by
  have hforgotten : Alike before last { s with temporary := ∅ } { s' with temporary := ∅ } := by
    refine ⟨?_, h.script, h.transcript, h.lastNotes, h.lastCommand⟩
    rw [h.rest]
  have hlines : ({ s' with temporary := ∅ } : Session).stopLines c why
      = ({ s with temporary := ∅ } : Session).stopLines c why := by
    rw [h.rest]
    rfl
  simp only [Session.opening, hlines]
  exact hforgotten.write _

/-- **Sessions that are alike cannot be told apart by a run.** -/
theorem hook_matches (before : Array Entry) : Hook.Matches (Beside before) hook hook where
  shouldStop := by
    rintro c s s' ⟨last, h⟩
    refine ⟨?_, last, h⟩
    rw [h.rest]
    rfl
  onStop := by
    rintro why c s s' ⟨last, h⟩
    have hmenu := alike_menu s.console.script c (stopNotes c why) (h.opening why c)
      (opening_script s why c)
    rw [← h.script] at hmenu
    exact hmenu

end Session

/-! ### Runs -/

/-- The debugger with its script written out. -/
def rewritten (d : Debugger) : Debugger :=
  d.setConsole { d.session.console with script := rewrite none d.session.console.script }

/-- Turns of the run lead there with these events. -/
def Leads (d : Debugger) (es : List Event) (t : Turn Session) : Prop :=
  Turns Session.hook (Loop.start d.computer d.openSession) es t

variable {d : Debugger}

theorem beside_openSession (hfresh : d.session.lastCommand = none) :
    Session.Beside d.session.console.transcript d.openSession d.rewritten.openSession := by
  refine ⟨none, rfl, rfl, .start, rfl, ?_⟩
  show Option.Rel Session.Spells none d.session.lastCommand
  rw [hfresh]
  exact .none

/--
**Only the commands that a script means matter.**

If no command has been given yet, a run makes the same events with the script written out,
and every run with the script written out is made in this way.  Under the same bound both
return or none does, with the same result, computer and breakpoints, and with transcripts
that differ in the lines that are not understood.

A run reads a part of its script from the beginning, line by line, and it stops at most once
more often than the script has lines.
-/
theorem run_rewritten (hfresh : d.session.lastCommand = none) :
    (∀ es t, d.Leads es t → ∃ t', d.rewritten.Leads es t' ∧
      t.Matches (Session.Beside d.session.console.transcript) t') ∧
    (∀ es t', d.rewritten.Leads es t' → ∃ t, d.Leads es t ∧
      t.Matches (Session.Beside d.session.console.transcript) t') ∧
    (∀ fuel, Option.Rel (fun x x' => x'.1 = x.1 ∧ x'.2.computer = x.2.computer ∧
        x'.2.breakpoints = x.2.breakpoints ∧
        Session.Beside d.session.console.transcript x.2.session x'.2.session)
      (d.run fuel) (d.rewritten.run fuel)) ∧
    (∀ es t, d.Leads es t → stops es ≤ d.session.console.script.length + 1 ∧
      ∃ lines, d.session.console.Reads lines t.state.console) := by
  have hhook := Session.hook_matches d.session.console.transcript
  have hbeside := beside_openSession hfresh
  have hstart : (Loop.start d.computer d.openSession).Matches
      (Session.Beside d.session.console.transcript)
      (Loop.start d.rewritten.computer d.rewritten.openSession) := ⟨rfl, hbeside, rfl⟩
  refine ⟨?_, ?_, ?_, ?_⟩
  · intro es t h
    exact Loop.turns_of_matches hhook hstart h
  · intro es t' h
    exact Loop.turns_of_matches' hhook hstart h
  · intro fuel
    have hobserve := Computer.observe_matches hhook (fun _ _ => ()) () fuel d.computer hbeside
    simp only [run, observe]
    show Option.Rel _ (Option.map _ (d.computer.observe Session.hook _ () fuel d.openSession))
      (Option.map _ (d.computer.observe Session.hook _ () fuel d.rewritten.openSession))
    generalize d.computer.observe _ _ () fuel d.openSession = x at hobserve ⊢
    generalize d.computer.observe _ _ () fuel d.rewritten.openSession = x' at hobserve ⊢
    cases hobserve with
    | none => exact .none
    | some hsame =>
        obtain ⟨-, hresult, hcomputer, last, halike⟩ := hsame
        have hbreakpoints := congrArg Session.breakpoints halike.rest
        exact .some ⟨hresult, hcomputer, hbreakpoints, last, halike⟩
  · intro es t h
    obtain ⟨lines, hreads, hstops, -⟩ := spent_of_turns h
    have hlength := congrArg List.length hreads.script
    rw [List.length_append] at hlength
    have hscript : (Loop.start d.computer d.openSession).state.console = d.session.console := rfl
    rw [hscript] at hreads hlength
    exact ⟨by omega, lines, hreads⟩

/-- Its script has lines that are blank, not understood or surrounded by blanks. -/
def mumbling : Debugger where
  computer := { program := #[.noOp, .noOp, .noOp] }
  session := { console := { script := ["", " s ", "what?", "\t", "c", "q"] } }

theorem mumbling_rewritten :
    mumbling.rewritten.session.console.script = ["s", "s", "c", "q"] ∧
      ∃ d', mumbling.rewritten.run 10 = some (.ok (), d') ∧ d'.computer.cpu.steps = 3 := by
  obtain ⟨-, -, hruns, -⟩ := run_rewritten (d := mumbling) rfl
  obtain ⟨d₁, hrun, hsteps⟩ : ∃ d₁, mumbling.run 10 = some (.ok (), d₁) ∧
      d₁.computer.cpu.steps = 3 := ⟨_, rfl, rfl⟩
  refine ⟨rfl, ?_⟩
  have hsame := hruns 10
  rw [hrun] at hsame
  generalize mumbling.rewritten.run 10 = x at hsame
  cases hsame with
  | @some _ x h =>
      obtain ⟨result, d'⟩ := x
      obtain ⟨rfl, hcomputer, -⟩ := h
      refine ⟨d', rfl, ?_⟩
      rw [hcomputer, hsteps]

end Debugger

end Mailroom
