/-
Running a program under a hook.

The loop executes one instruction after the other and may hand control to a hook in two
situations: before an instruction, if the hook asks for it, and when the program has
come to its end.  While it is in control the hook may change the computer in any way.
After a break it is not asked again before the next instruction, so the instruction it
stopped at can be executed.  After the end the run goes on only if the hook wants it to
and has cleared the `halted` flag.

One `turn` of the loop is a plain function from one state of the loop to the next.  It
also says what happened on the way, as events; the log is read off them, and an observer
may fold them while the loop runs.  A program may run for ever, so `drive` takes a bound
on the number of turns and answers nothing if that is used up.
-/
import Mailroom.Computer

namespace Mailroom

/-- Why the loop hands control to its hook. -/
inductive Stop where
  /-- The hook asked for it; the instruction at the current step has not run yet. -/
  | break
  /-- The inbox ran dry or the current step is outside the program. -/
  | finished
  deriving DecidableEq

/-- What the hook wants when it gives control back. -/
inductive Resume where
  | continue
  | quit
  deriving DecidableEq

/-- What a hook leaves behind at a stop. -/
structure Reaction (σ : Type) where
  answer : Except Cpu.Error Resume
  computer : Computer
  state : σ
  /-- What it reported while it was in control. -/
  notes : List Log.Record := []

/-- Something with a state of its own that may interrupt a run. -/
structure Hook (σ : Type) where
  shouldStop : Computer → σ → Bool × σ
  onStop : Stop → Computer → σ → Reaction σ

/-- Never interrupts a run. -/
def Hook.unattended : Hook Unit where
  shouldStop _ s := (false, s)
  onStop _ c s := { answer := .ok .quit, computer := c, state := s }

/-- Ends a run after a number of instructions. -/
def Hook.limit (bound : Nat) : Hook Unit where
  shouldStop c s := (decide (bound ≤ c.cpu.steps), s)
  onStop _ c s := { answer := .ok .quit, computer := c, state := s }

/-- What the loop did. -/
inductive Event where
  | asked (computer : Computer) (answer : Bool)
  | stopped (why : Stop) (before after : Computer) (answer : Except Cpu.Error Resume)
      (notes : List Log.Record)
  | ticked (before after : Computer) (result : Except Cpu.Error Unit)

/-- What a run ends with. -/
structure Outcome (σ : Type) where
  result : Except Cpu.Error Unit
  computer : Computer
  state : σ

/-- The state of the loop between two turns. -/
structure Loop (σ : Type) where
  computer : Computer
  state : σ
  /-- The hook has just been in control and is not asked again. -/
  resumed : Bool := false

/-- A turn leads to the next one or to the end of the run. -/
inductive Turn (σ : Type) where
  | next (loop : Loop σ)
  | over (outcome : Outcome σ)

namespace Loop

variable {σ : Type}

/-- Executes one instruction; an empty inbox halts the machine and is no failure. -/
def tick (l : Loop σ) : List Event × Turn σ :=
  let c := l.computer
  match Cpu.tick c.program c.jumps c.cpu with
  | .ok _ cpu =>
    let after := { c with cpu }
    ([.ticked c after (.ok ())], .next ⟨after, l.state, false⟩)
  | .error .inboxEmpty cpu =>
    let after := { c with cpu := { cpu with halted := true } }
    ([.ticked c after (.error .inboxEmpty)], .next ⟨after, l.state, false⟩)
  | .error e cpu =>
    let after := { c with cpu }
    ([.ticked c after (.error e)], .over ⟨.error e, after, l.state⟩)

/-- Hands control to the hook at the end of the program. -/
def finish (h : Hook σ) (l : Loop σ) : List Event × Turn σ :=
  let before := l.computer.setHalted true
  let r := h.onStop .finished before l.state
  let events := [.stopped .finished before r.computer r.answer r.notes]
  match r.answer with
  | .error e => (events, .over ⟨.error e, r.computer, r.state⟩)
  | .ok .quit => (events, .over ⟨.ok (), r.computer, r.state⟩)
  | .ok .continue =>
    if r.computer.cpu.halted then (events, .over ⟨.ok (), r.computer, r.state⟩)
    else (events, .next ⟨r.computer, r.state, true⟩)

/-- Hands control to the hook before an instruction. -/
def interrupt (h : Hook σ) (l : Loop σ) : List Event × Turn σ :=
  let r := h.onStop .break l.computer l.state
  let events := [.stopped .break l.computer r.computer r.answer r.notes]
  match r.answer with
  | .error e => (events, .over ⟨.error e, r.computer, r.state⟩)
  | .ok .quit => (events, .over ⟨.ok (), r.computer, r.state⟩)
  | .ok .continue => (events, .next ⟨r.computer, r.state, true⟩)

/-- Goes once around the loop. -/
def turn (h : Hook σ) (l : Loop σ) : List Event × Turn σ :=
  if !l.computer.isRunning then l.finish h
  else if l.resumed then l.tick
  else
    let (stop, state) := h.shouldStop l.computer l.state
    let asked := Event.asked l.computer stop
    let (events, t) := if stop then interrupt h { l with state } else tick { l with state }
    (asked :: events, t)

/--
Goes around the loop until the run is over, at most `fuel` times, and folds the events
with `observe`.
-/
def drive {α : Type} (h : Hook σ) (observe : α → Event → α) :
    Nat → α → Loop σ → Option (α × Outcome σ)
  | 0, _, _ => none
  | fuel + 1, a, l =>
    let (events, t) := l.turn h
    let a := events.foldl observe a
    match t with
    | .next l => drive h observe fuel a l
    | .over o => some (a, o)

/-- A run starts with the registers reset and the hook not yet asked. -/
def start (c : Computer) (state : σ) : Loop σ :=
  { computer := { c with cpu := c.cpu.reset }, state }

end Loop

/-- After a run no program is running. -/
def Outcome.close {σ : Type} (o : Outcome σ) : Outcome σ :=
  { o with computer := o.computer.setPc none }

namespace Computer

variable {σ : Type}

/-- A run from step 0 under a hook, with an observer that folds the events. -/
def observe {α : Type} (h : Hook σ) (observer : α → Event → α) (a : α) (fuel : Nat)
    (c : Computer) (state : σ) : Option (α × Outcome σ) :=
  ((Loop.start c state).drive h observer fuel a).map fun (a, o) => (a, o.close)

/-- A run from step 0 under a hook. -/
def runWith (h : Hook σ) (fuel : Nat) (c : Computer) (state : σ) : Option (Outcome σ) :=
  (c.observe h (fun _ _ => ()) () fuel state).map (·.2)

/--
A run from step 0 until the inbox runs out or the current step leaves the program.  Any
other failure of an instruction ends it too, and is its result.
-/
def run (fuel : Nat) (c : Computer) : Option (Outcome Unit) :=
  c.runWith .unattended fuel ()

end Computer

/-! ### What is reported -/

/-- Records of an event, in order. -/
def Event.records : Event → List Log.Record
  | asked .. => []
  | stopped _ _ _ _ notes => notes
  | ticked before after result =>
    before.cpu.announcement before.program ++
      match result with
      | .error .inboxEmpty =>
        [⟨.info, "inbox is empty, stopping after " ++ Numeral.ofNat after.cpu.steps ++ " steps"⟩]
      | _ => []

/-- The record of a run being over. -/
def Outcome.record {σ : Type} (o : Outcome σ) : Log.Record where
  level := .debug
  text := "run over after " ++ Numeral.ofNat o.computer.cpu.steps ++ " steps"

end Mailroom
