/-
Loading another program is all or nothing.

A text that does not assemble, and a file that cannot be read or does not assemble, leave the
debugger as it was, with its computer and its session.  What is loaded replaces program and jump
table and makes the session forget what belonged to the old program.

The computer keeps its registers and boxes, and the session what it remembered of the last run.
None of this reaches the next run.  A run begins with a reset, and then nothing is left of the
computer but its work: program, jump table, memory and inbox.  And it begins by remembering inbox
and memory anew and by arming step 0.  Two debuggers that agree in this (`StartsLike`) cannot be
told apart by a run, and as they still agree when both have been prepared in the same way, a
debugger that was loaded runs like a new one.
-/
import Mailroom.Debugger
import Mailroom.Proofs.Computer.Watched

namespace Mailroom

/-! ### Files -/

namespace Assembly

/-- What keeps a file from being assembled. -/
inductive FileFails : Option ByteArray → FileError → Prop
  | missing : FileFails none (.unreadable .missing)
  | notText {bytes : ByteArray} (h : String.fromUTF8? bytes = none) :
      FileFails (some bytes) (.unreadable .notText)
  | fault {bytes : ByteArray} {source : String} {fault : Fault}
      (h : String.fromUTF8? bytes = some source) (hfault : assemble source = .error fault) :
      FileFails (some bytes) (.fault fault)

theorem assembleFile_of_notText {bytes : ByteArray} (h : String.fromUTF8? bytes = none) :
    assembleFile (some bytes) = .error (.unreadable .notText) := by
  simp only [assembleFile, Source.read, Source.decode, h]

theorem assembleFile_of_text {bytes : ByteArray} {source : String}
    (h : String.fromUTF8? bytes = some source) :
    assembleFile (some bytes) = match assemble source with
      | .ok assembly => .ok assembly
      | .error fault => .error (.fault fault) := by
  cases hassemble : assemble source <;>
    simp only [assembleFile, Source.read, Source.decode, h, hassemble]

/-- There are no other failures than these. -/
theorem assembleFile_eq_error {file : Option ByteArray} {e : FileError} :
    assembleFile file = .error e ↔ FileFails file e := by
  constructor
  · intro h
    cases file with
    | none =>
        cases h
        exact .missing
    | some bytes =>
        cases htext : String.fromUTF8? bytes with
        | none =>
            rw [assembleFile_of_notText htext] at h
            cases h
            exact .notText htext
        | some source =>
            rw [assembleFile_of_text htext] at h
            cases hassemble : assemble source with
            | ok assembly =>
                rw [hassemble] at h
                cases h
            | error fault =>
                rw [hassemble] at h
                cases h
                exact .fault htext hassemble
  · intro h
    cases h with
    | missing => rfl
    | notText htext => exact assembleFile_of_notText htext
    | fault htext hfault => rw [assembleFile_of_text htext, hfault]

/-- A file is assembled as the text that it holds. -/
theorem assembleFile_eq_ok {file : Option ByteArray} {assembly : Assembly} :
    assembleFile file = .ok assembly ↔ ∃ bytes source, file = some bytes ∧
      String.fromUTF8? bytes = some source ∧ assemble source = .ok assembly := by
  constructor
  · intro h
    cases file with
    | none => cases h
    | some bytes =>
        cases htext : String.fromUTF8? bytes with
        | none =>
            rw [assembleFile_of_notText htext] at h
            cases h
        | some source =>
            rw [assembleFile_of_text htext] at h
            cases hassemble : assemble source with
            | ok spelled =>
                rw [hassemble] at h
                cases h
                exact ⟨bytes, source, rfl, htext, hassemble⟩
            | error fault =>
                rw [hassemble] at h
                cases h
  · intro h
    obtain ⟨bytes, source, rfl, htext, hassemble⟩ := h
    rw [assembleFile_of_text htext, hassemble]

end Assembly

namespace Debugger

/-! ### Loading -/

/-- What a source is loaded by, be it a text or a file. -/
def loadFrom {ε : Type} (source : Except ε Assembly) : EStateM ε Debugger Unit := do
  let assembly ← liftExcept source
  modify (·.load assembly)

section

variable {ε : Type} {source : Except ε Assembly} {d d' : Debugger}

theorem loadFrom_eq_ok :
    (loadFrom source).run d = .ok () d' ↔ ∃ assembly, source = .ok assembly ∧
      d' = d.load assembly := by
  cases source with
  | ok assembly =>
      constructor
      · intro h
        cases h
        exact ⟨assembly, rfl, rfl⟩
      · intro h
        obtain ⟨_, h, rfl⟩ := h
        cases h
        rfl
  | error e =>
      constructor
      · intro h
        cases h
      · intro h
        obtain ⟨_, h, -⟩ := h
        cases h

theorem loadFrom_eq_error {e : ε} :
    (loadFrom source).run d = .error e d' ↔ source = .error e ∧ d' = d := by
  cases source with
  | ok assembly =>
      constructor
      · intro h
        cases h
      · intro h
        cases h.1
  | error fault =>
      constructor
      · intro h
        cases h
        exact ⟨rfl, rfl⟩
      · intro h
        obtain ⟨h, rfl⟩ := h
        cases h
        rfl

theorem breakpoints_of_loaded (h : (loadFrom source).run d = .ok () d') : d'.breakpoints = ∅ := by
  obtain ⟨assembly, -, rfl⟩ := loadFrom_eq_ok.mp h
  rfl

theorem eq_of_not_loaded {e : ε} (h : (loadFrom source).run d = .error e d') : d' = d :=
  (loadFrom_eq_error.mp h).2

end

/-! ### What the next run looks at -/

variable {d d' : Debugger}

/-- Two debuggers with the same work before them, whose next sessions begin alike. -/
structure StartsLike (d d' : Debugger) : Prop where
  work : d.computer.SameWork d'.computer
  session : d.openSession = d'.openSession

/-- A run cannot tell them apart. -/
theorem StartsLike.observe_eq (h : d.StartsLike d') {α : Type} (observer : α → Event → α) (a : α)
    (fuel : Nat) : d.observe observer a fuel = d'.observe observer a fuel := by
  have hstart : Loop.start d.computer d.openSession = Loop.start d'.computer d'.openSession := by
    simp only [Loop.start, h.work.reset_eq, h.work.program, h.work.jumps, h.session]
  simp only [observe, Computer.observe, hstart]

theorem StartsLike.run_eq (h : d.StartsLike d') (fuel : Nat) : d.run fuel = d'.run fuel := by
  simp only [run, h.observe_eq]

/-- What may be done with a debugger before it runs. -/
inductive Preparation where
  | inbox (inbox : List Value)
  | memory (memory : Memory)
  | redirect (label : String) (step : Nat)
  | withdraw (label : String)
  | toggle (step : Nat)
  | console (console : Console)

/-- The debugger after a preparation. -/
def prepare (d : Debugger) : Preparation → Debugger
  | .inbox inbox => { d with computer := d.computer.setInbox inbox }
  | .memory memory => { d with computer := d.computer.setMemory memory }
  | .redirect label step => { d with computer := d.computer.redirect label step }
  | .withdraw label =>
    { d with computer := { d.computer with jumps := (d.computer.jumps.remove label).2 } }
  | .toggle step => (d.toggleBreakpoint step).2
  | .console console => d.setConsole console

/-- The debugger after some preparations, one by one. -/
def prepared (d : Debugger) (ps : List Preparation) : Debugger :=
  ps.foldl prepare d

theorem openSession_toggleBreakpoint (d : Debugger) (step : Nat) :
    (d.toggleBreakpoint step).2.openSession = (d.openSession.toggle step).2 := by
  have hkept : d.openSession.breakpoints = d.session.breakpoints := rfl
  unfold toggleBreakpoint Session.toggle
  by_cases hset : d.session.breakpoints.contains step = true
  · simp only [hkept, if_pos hset]
    rfl
  · simp only [hkept, if_neg hset]
    rfl

theorem StartsLike.prepare (h : d.StartsLike d') (p : Preparation) :
    (d.prepare p).StartsLike (d'.prepare p) := by
  obtain ⟨hwork, hsession⟩ := h
  cases p with
  | inbox inbox =>
      refine ⟨⟨hwork.program, hwork.jumps, hwork.memory, rfl⟩, ?_⟩
      show { d.openSession with inbox } = { d'.openSession with inbox }
      rw [hsession]
  | memory memory =>
      refine ⟨⟨hwork.program, hwork.jumps, rfl, hwork.inbox⟩, ?_⟩
      show { d.openSession with memory } = { d'.openSession with memory }
      rw [hsession]
  | redirect label step =>
      refine ⟨⟨hwork.program, ?_, hwork.memory, hwork.inbox⟩, hsession⟩
      show (d.computer.jumps.insert label step).2 = (d'.computer.jumps.insert label step).2
      rw [hwork.jumps]
  | withdraw label =>
      refine ⟨⟨hwork.program, ?_, hwork.memory, hwork.inbox⟩, hsession⟩
      show (d.computer.jumps.remove label).2 = (d'.computer.jumps.remove label).2
      rw [hwork.jumps]
  | toggle step =>
      refine ⟨hwork, ?_⟩
      show (d.toggleBreakpoint step).2.openSession = (d'.toggleBreakpoint step).2.openSession
      rw [openSession_toggleBreakpoint, openSession_toggleBreakpoint, hsession]
  | console console =>
      refine ⟨hwork, ?_⟩
      show { d.openSession with console } = { d'.openSession with console }
      rw [hsession]

theorem StartsLike.prepared (h : d.StartsLike d') (ps : List Preparation) :
    (d.prepared ps).StartsLike (d'.prepared ps) := by
  induction ps generalizing d d' with
  | nil => exact h
  | cons p ps ih => exact ih (h.prepare p)

/-! ### A new debugger -/

/-- A new debugger, given a memory and an inbox. -/
def fresh (memory : Memory) (inbox : List Value) (console : Console) : Debugger where
  computer := ((default : Computer).setMemory memory).setInbox inbox
  session := { console }

/-- What is left of the past in a debugger that has been loaded does not matter. -/
theorem load_startsLike_fresh (d : Debugger) (assembly : Assembly) :
    (d.load assembly).StartsLike
      ((fresh d.computer.cpu.memory d.computer.cpu.inbox d.session.console).load assembly) :=
  ⟨⟨rfl, rfl, rfl, rfl⟩, rfl⟩

/-- How a source is loaded into a debugger. -/
structure Loading (d : Debugger) : Prop where
  /-- A text that does not assemble is refused with its first fault, and nothing changes. -/
  refused : ∀ source fault d', (loadSource source).run d = .error fault d' ↔
    assemble source = .error fault ∧ d' = d
  /-- A file is refused if it cannot be read, is not text or does not assemble, and nothing
  changes. -/
  refusedFile : ∀ file e d', (loadFile file).run d = .error e d' ↔
    Assembly.FileFails file e ∧ d' = d
  /-- Any other text replaces program and jump table.  No step is current then; breakpoints of
  both kinds and the command to repeat are forgotten, and all the rest is kept. -/
  loaded : ∀ source d', (loadSource source).run d = .ok () d' ↔
    ∃ assembly, assemble source = .ok assembly ∧ d' =
      { computer :=
          { cpu := { d.computer.cpu with pc := none }
            program := assembly.program
            jumps := assembly.jumps }
        session := { d.session with breakpoints := ∅, temporary := ∅, lastCommand := none } }
  /-- A file is loaded as the text that it holds. -/
  loadedFile : ∀ file d', (loadFile file).run d = .ok () d' ↔
    ∃ bytes source, file = some bytes ∧ String.fromUTF8? bytes = some source ∧
      (loadSource source).run d = .ok () d'
  /-- What becomes of the computer is what its own loading makes of it. -/
  computer : ∀ source, (Computer.loadSource source).run d.computer =
    match (loadSource source).run d with
    | .ok () d' => .ok () d'.computer
    | .error fault d' => .error fault d'.computer
  computerFile : ∀ file, (Computer.loadFile file).run d.computer =
    match (loadFile file).run d with
    | .ok () d' => .ok () d'.computer
    | .error e d' => .error e d'.computer
  /-- Prepared in the same way, what was loaded runs like a new debugger that was given the same
  memory and inbox and then loaded the same source. -/
  likeNew : ∀ source d', (loadSource source).run d = .ok () d' → ∃ new,
    (loadSource source).run
        (fresh d.computer.cpu.memory d.computer.cpu.inbox d.session.console) = .ok () new ∧
      ∀ ps : List Preparation,
        (∀ fuel, (d'.prepared ps).run fuel = (new.prepared ps).run fuel) ∧
        ∀ {α : Type} (observer : α → Event → α) (a : α) (fuel : Nat),
          (d'.prepared ps).observe observer a fuel
            = (new.prepared ps).observe observer a fuel

/--
**A failed load leaves everything as it was, and a load that succeeds leaves nothing of the old
program behind**, whatever has been done with the debugger before.
-/
theorem loading_all_or_nothing (d : Debugger) : d.Loading where
  refused source fault d' := loadFrom_eq_error
  refusedFile file e d' := by
    rw [← Assembly.assembleFile_eq_error]
    exact loadFrom_eq_error
  loaded source d' := loadFrom_eq_ok
  loadedFile file d' := by
    constructor
    · intro h
      obtain ⟨assembly, hfile, hd⟩ := loadFrom_eq_ok.mp h
      obtain ⟨bytes, source, hbytes, htext, hassemble⟩ := Assembly.assembleFile_eq_ok.mp hfile
      exact ⟨bytes, source, hbytes, htext, loadFrom_eq_ok.mpr ⟨assembly, hassemble, hd⟩⟩
    · intro h
      obtain ⟨bytes, source, hbytes, htext, hload⟩ := h
      obtain ⟨assembly, hassemble, hd⟩ := loadFrom_eq_ok.mp hload
      exact loadFrom_eq_ok.mpr
        ⟨assembly, Assembly.assembleFile_eq_ok.mpr ⟨bytes, source, hbytes, htext, hassemble⟩, hd⟩
  computer source := by
    unfold Computer.loadSource loadSource
    cases assemble source <;> rfl
  computerFile file := by
    unfold Computer.loadFile loadFile
    cases assembleFile file <;> rfl
  likeNew source d' h := by
    obtain ⟨assembly, hassemble, rfl⟩ := loadFrom_eq_ok.mp h
    refine ⟨_, loadFrom_eq_ok.mpr ⟨assembly, hassemble, rfl⟩, ?_⟩
    intro ps
    have hlike := (load_startsLike_fresh d assembly).prepared ps
    exact ⟨hlike.run_eq, hlike.observe_eq⟩

/-- Stopped in the middle of a run, with a breakpoint and a command to repeat. -/
def worn : Debugger where
  computer :=
    { cpu := { pc := some 0, accumulator := some (.int 3), inbox := [.int 1], outbox := #[.int 2] }
      program := #[.noOp]
      jumps := ⟨[("a", 0)]⟩ }
  session := { breakpoints := .ofList [0], temporary := .ofList [1], lastCommand := some .step }

example : (loadSource "no_op\nadd").run worn = .error ⟨.argumentRequired, 2, "add"⟩ worn := rfl

end Debugger

end Mailroom
