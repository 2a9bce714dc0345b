/-
The moments of a run, in their order.

`Path m es m'` says that from moment `m` the happenings `es` lead to `m'`, and
`Debugger.Trace` is such a path from the beginning of a run.  Claims about everything
that can happen in a run are claims about traces, because every happening of a run that
never ends is on one of them too.

That traces are runs is not a matter of definition, since a run goes round a loop that
knows nothing of single lines.  `turn_path` shows that each turn of the loop is a path,
and from it follow both directions: wherever turns of the loop get, a trace leads there,
with the stops and instructions that an observer of the run is told of, and every trace
is a part of one that turns of the loop go along.  `TracesAreRuns` puts this together.
-/
import Mailroom.Proofs.Debugger.Moment

namespace Mailroom

namespace Debugger

/-- `Path m es m'`: from `m` the happenings `es` lead to `m'`. -/
inductive Path (m : Moment) : List Happening → Moment → Prop
  | nil : Path m [] m
  | snoc {es : List Happening} {m₁ m₂ : Moment} {e : Happening} (before : Path m es m₁)
      (h : m₁.step = some (e, m₂)) : Path m (es ++ [e]) m₂

namespace Path

variable {m m₁ m₂ : Moment} {e : Happening}

theorem single (h : m.step = some (e, m₁)) : Path m [e] m₁ :=
  .snoc .nil h

theorem append {es es' : List Happening} (h : Path m es m₁) (h' : Path m₁ es' m₂) :
    Path m (es ++ es') m₂ := by
  induction h' with
  | nil => rw [List.append_nil]; exact h
  | snoc _ hstep ih =>
      rw [← List.append_assoc]
      exact .snoc ih hstep

theorem cons {es : List Happening} (h : m.step = some (e, m₁)) (h' : Path m₁ es m₂) :
    Path m (e :: es) m₂ :=
  (single h).append h'

/-- A path passes through a moment after each of its happenings. -/
theorem split {es₁ es₂ : List Happening} (h : Path m (es₁ ++ es₂) m₂) :
    ∃ m₁, Path m es₁ m₁ ∧ Path m₁ es₂ m₂ := by
  generalize hes : es₁ ++ es₂ = es at h
  induction h generalizing es₂ with
  | nil =>
      obtain ⟨rfl, rfl⟩ := List.append_eq_nil_iff.mp hes
      exact ⟨m, .nil, .nil⟩
  | @snoc es m₁ m₂ e hbefore hstep ih =>
      rcases List.eq_nil_or_concat es₂ with rfl | ⟨es₃, e', rfl⟩
      · rw [List.append_nil] at hes
        subst hes
        exact ⟨m₂, .snoc hbefore hstep, .nil⟩
      · rw [List.concat_eq_append] at hes ⊢
        rw [← List.append_assoc] at hes
        obtain ⟨hfront, he⟩ := List.append_inj' hes rfl
        cases he
        obtain ⟨mid, h₁, h₂⟩ := ih hfront
        exact ⟨mid, h₁, .snoc h₂ hstep⟩

theorem nil_eq (h : Path m [] m₁) : m₁ = m := by
  generalize hes : ([] : List Happening) = es at h
  cases h with
  | nil => rfl
  | snoc _ _ => simp at hes

/-- Nothing happens after the end. -/
theorem of_done {o : Outcome Session} {es : List Happening} (h : Path (.done o) es m) :
    es = [] ∧ m = .done o := by
  induction h with
  | nil => exact ⟨rfl, rfl⟩
  | snoc _ hstep ih =>
      obtain ⟨-, rfl⟩ := ih
      cases hstep

/-- The first happening of a path is the one that its first moment leads to. -/
theorem head {es : List Happening} (h : Path m (e :: es) m₂) :
    ∃ m₁, m.step = some (e, m₁) ∧ Path m₁ es m₂ := by
  have hsplit : Path m ([e] ++ es) m₂ := h
  obtain ⟨m₁, h₁, h₂⟩ := hsplit.split
  refine ⟨m₁, ?_, h₂⟩
  generalize hes : [e] = es' at h₁
  cases h₁ with
  | nil => cases hes
  | @snoc es'' m' _ e' hbefore hstep =>
      have hsnoc : [] ++ [e] = es'' ++ [e'] := hes
      obtain ⟨hnil, he⟩ := List.append_inj' hsnoc rfl
      subst hnil
      cases he
      rw [← nil_eq hbefore]
      exact hstep

/-- The last happening of a path. -/
theorem last {es : List Happening} (h : Path m (es ++ [e]) m₂) :
    ∃ m₁, Path m es m₁ ∧ m₁.step = some (e, m₂) := by
  obtain ⟨m₁, h₁, h₂⟩ := split h
  obtain ⟨m₂', hstep, hnil⟩ := head h₂
  rw [nil_eq hnil]
  exact ⟨m₁, h₁, hstep⟩

/-- Of two paths from one moment, one goes on where the other ends. -/
theorem total {es es' : List Happening} (h : Path m es m₁) (h' : Path m es' m₂) :
    (∃ rest, es' = es ++ rest ∧ Path m₁ rest m₂) ∨ ∃ rest, es = es' ++ rest ∧ Path m₂ rest m₁ := by
  induction h with
  | nil => exact Or.inl ⟨es', rfl, h'⟩
  | @snoc es m₃ m₁ e _ hstep ih =>
      rcases ih with ⟨rest, rfl, hrest⟩ | ⟨rest, rfl, hrest⟩
      · cases rest with
        | nil =>
            rw [nil_eq hrest]
            exact Or.inr ⟨[e], by simp, single hstep⟩
        | cons e' rest =>
            obtain ⟨m₄, hstep', hrest'⟩ := head hrest
            rw [hstep] at hstep'
            cases hstep'
            exact Or.inl ⟨rest, by simp, hrest'⟩
      · exact Or.inr ⟨rest ++ [e], by simp, .snoc hrest hstep⟩

end Path

/-! ### What an observer of the loop is told -/

/-- Something that can be seen from the loop as well as on a path. -/
inductive Mark where
  | stop (why : Stop) (computer : Computer)
  | instruction (computer : Computer) (result : Except Cpu.Error Unit)

def Happening.mark? : Happening → Option Mark
  | .stopped why c _ => some (.stop why c)
  | .attempted c _ result => some (.instruction c result)
  | .answered _ _ | .closed => none

end Debugger

def Event.mark? : Event → Option Debugger.Mark
  | .asked _ _ => none
  | .stopped why before _ _ _ => some (.stop why before)
  | .ticked before _ result => some (.instruction before result)

namespace Debugger

open Moment

/-! ### Turns of the loop are paths -/

/-- The moment after the session has given control back. -/
def Moment.ofReaction (why : Stop) (r : Reaction Session) : Moment :=
  match r.answer with
  | .error e => .done ⟨.error e, r.computer, r.state⟩
  | .ok answer => resumed why answer r.computer r.state

/-- A menu reads its lines one after the other. -/
theorem menu_path (why : Stop) : ∀ (lines : List String) (c : Computer) (s : Session)
    (notes : List Log.Record), s.console.script = lines →
    ∃ es, Path (.menu why c s) es (ofReaction why (Session.menu c s notes lines)) ∧
      es.filterMap Happening.mark? = [] := by
  intro lines
  induction lines with
  | nil =>
      intro c s notes hscript
      refine ⟨[.closed], Path.single ?_, rfl⟩
      simp only [step, hscript]
      rfl
  | cons line rest ih =>
      intro c s notes hscript
      have hstep : (Moment.menu why c s).step =
          some (.answered line (s.meant line), answer why c (s.read (some line) rest) line) :=
        step_of_line why c hscript
      have hconsole := Session.respond_console (s.read (some line) rest) c line
      simp only [answer] at hstep
      generalize hr : (s.read (some line) rest).respond c line = r at hstep hconsole
      cases hresume : r.resume with
      | some resume =>
          simp only [hresume] at hstep
          refine ⟨[.answered line (s.meant line)], Path.single ?_, rfl⟩
          simp only [hstep, Session.menu, hr, hresume]
          rfl
      | none =>
          simp only [hresume] at hstep
          have hrest : (r.session.write r.lines).console.script = rest := by
            show r.session.console.script = rest
            rw [hconsole]
            rfl
          obtain ⟨es, hpath, hmarks⟩ := ih r.computer _ (notes ++ r.notes) hrest
          refine ⟨.answered line (s.meant line) :: es, Path.cons hstep ?_, hmarks⟩
          simpa only [Session.menu, hr, hresume] using hpath

/-- What the loop makes of a reaction is what the path makes of it. -/
theorem ofTurn_turn (why : Stop) (r : Reaction Session) :
    ofTurn (r.turn why) = ofReaction why r := by
  obtain ⟨answer, computer, state, notes⟩ := r
  cases answer with
  | error e => rfl
  | ok resume =>
      cases resume with
      | quit => rfl
      | «continue» =>
          simp only [Reaction.turn, ofReaction, resumed]
          split <;> rfl

theorem tick_marks (l : Loop Session) :
    l.tick.1.filterMap Event.mark? = [.instruction l.computer (tickResult l.computer)] := by
  unfold tickResult
  cases htick : Cpu.tick l.computer.program l.computer.jumps l.computer.cpu with
  | ok _ cpu =>
      rw [Loop.tick_of_ok htick]
      rfl
  | error e cpu =>
      by_cases he : e = .inboxEmpty
      · subst he
        rw [Loop.tick_of_inboxEmpty htick]
        rfl
      · rw [Loop.tick_of_error htick he]
        rfl

/-- A stop, its menu and what comes after it. -/
theorem stop_path {m : Moment} {why : Stop} {c : Computer} {s : Session}
    (h : m.step = some (stop why c s)) :
    ∃ e es, Path m (e :: es) (ofReaction why (Session.onStop why c s)) ∧
      (e :: es).filterMap Happening.mark? = [.stop why c] := by
  obtain ⟨es, hpath, hmarks⟩ := menu_path why s.console.script c (s.opening why c)
    (Session.stopNotes c why) (s.opening_script why c)
  refine ⟨_, es, Path.cons h hpath, ?_⟩
  simp only [List.filterMap_cons, Happening.mark?, hmarks]

/-- An instruction that is not interrupted is not marked before it is attempted. -/
theorem cleared_of_unasked {l : Loop Session}
    (hask : l.resumed = true ∨ (Session.shouldStop l.computer l.state).1 = false) :
    ∃ asked, asked.filterMap Event.mark? = [] ∧ Loop.Cleared Session.hook l asked l.state := by
  cases hresumed : l.resumed with
  | true => exact ⟨[], rfl, .resumed hresumed⟩
  | false =>
      have hno : (Session.shouldStop l.computer l.state).1 = false := by simpa [hresumed] using hask
      have hanswer : Session.hook.shouldStop l.computer l.state = (false, l.state) :=
        Prod.ext hno rfl
      exact ⟨[.asked l.computer false], rfl, .asked hresumed hanswer⟩

/-- **A turn of the loop is a path**, on which the same stops and instructions are seen. -/
theorem turn_path (l : Loop Session) :
    ∃ e es, Path (.turning l) (e :: es) (ofTurn (l.turn Session.hook).2) ∧
      (e :: es).filterMap Happening.mark? = (l.turn Session.hook).1.filterMap Event.mark? := by
  cases hrun : l.computer.isRunning with
  | false =>
      rw [Loop.turn_of_end hrun, Loop.finish_eq Session.hook l rfl, ofTurn_turn]
      exact stop_path (step_of_end hrun)
  | true =>
      by_cases hask : l.resumed = true ∨ (Session.shouldStop l.computer l.state).1 = false
      · obtain ⟨asked, hmarks, hclear⟩ := cleared_of_unasked hask
        rw [Loop.turn_of_cleared hrun hclear]
        refine ⟨_, [], Path.single (step_of_unasked hrun hask), ?_⟩
        rw [List.filterMap_append, hmarks, tick_marks]
        rfl
      · simp only [not_or, Bool.not_eq_true, Bool.not_eq_false] at hask
        have hanswer : Session.hook.shouldStop l.computer l.state = (true, l.state) :=
          Prod.ext hask.2 rfl
        rw [Loop.turn_of_break hrun hask.1 hanswer,
          Loop.interrupt_eq Session.hook { l with state := l.state } rfl, ofTurn_turn]
        exact stop_path (step_of_breakpoint hrun hask.1 hask.2)

/-! ### Runs are traces and traces are runs -/

/-- The first moment of a run. -/
def opening (d : Debugger) : Moment :=
  .turning (Loop.start d.computer d.openSession)

/-- `d.Trace es m`: in a run of `d`, the happenings `es` lead to `m`. -/
def Trace (d : Debugger) (es : List Happening) (m : Moment) : Prop :=
  Path d.opening es m

/-- Turns of the loop go along a path. -/
theorem path_of_turns {l : Loop Session} {events : List Event} {t : Turn Session}
    (h : Loop.Turns Session.hook l events t) :
    ∃ es, Path (.turning l) es (ofTurn t) ∧
      es.filterMap Happening.mark? = events.filterMap Event.mark? := by
  induction h with
  | start => exact ⟨[], .nil, rfl⟩
  | @snoc events events' l' t before last ih =>
      obtain ⟨es, hpath, hmarks⟩ := ih
      obtain ⟨e, es', hpath', hmarks'⟩ := turn_path l'
      rw [last] at hpath' hmarks'
      refine ⟨es ++ e :: es', hpath.append hpath', ?_⟩
      rw [List.filterMap_append, List.filterMap_append, hmarks, hmarks']

/-- Every path is a part of one that turns of the loop go along. -/
theorem turns_of_path {l : Loop Session} {es : List Happening} {m : Moment}
    (h : Path (.turning l) es m) :
    ∃ rest events t, Path m rest (ofTurn t) ∧ Loop.Turns Session.hook l events t ∧
      (es ++ rest).filterMap Happening.mark? = events.filterMap Event.mark? := by
  induction hlen : es.length using Nat.strongRecOn generalizing l es with
  | ind n ih =>
      obtain ⟨e, first, hpath, hmarks⟩ := turn_path l
      rcases hturn : l.turn Session.hook with ⟨events, t⟩
      rw [hturn] at hpath hmarks
      have hfirst := Loop.Turns.single hturn
      rcases hpath.total h with ⟨left, rfl, hleft⟩ | ⟨left, heq, hleft⟩
      · cases t with
        | «over» o =>
            obtain ⟨rfl, rfl⟩ := Path.of_done hleft
            exact ⟨[], events, .over o, .nil, hfirst, by simpa using hmarks⟩
        | next l' =>
            -- The turn is the first part of the path, so what is left of the path is shorter.
            have hshort : left.length < n := by
              simp only [List.length_append, List.length_cons] at hlen
              omega
            obtain ⟨rest, events', t', hrest, hturns, hmarks'⟩ := ih _ hshort hleft rfl
            refine ⟨rest, events ++ events', t', hrest, hfirst.append hturns, ?_⟩
            rw [List.append_assoc, List.filterMap_append, hmarks, hmarks', List.filterMap_append]
      · rw [heq] at hmarks
        exact ⟨left, events, t, hleft, hfirst, hmarks⟩

/--
**What a run returns is at the end of a trace**, and the stops and instructions that the
run reports to an observer are those of the trace, in their order.
-/
theorem exists_trace_of_observe {α : Type} {observer : α → Event → α} {a b : α} {fuel : Nat}
    {d : Debugger} {o : Outcome Session} (h : d.observe observer a fuel = some (b, o)) :
    ∃ (es : List Happening) (events : List Event) (o' : Outcome Session),
      d.Trace es (.done o') ∧ o = o'.close ∧ b = events.foldl observer a ∧
      es.filterMap Happening.mark? = events.filterMap Event.mark? := by
  obtain ⟨events, o', hturns, hb, ho⟩ := Computer.observe_iff.mp ⟨fuel, h⟩
  obtain ⟨es, hpath, hmarks⟩ := path_of_turns hturns
  exact ⟨es, events, o', hpath, ho, hb, hmarks⟩

/-- What a run returns is at the end of a trace. -/
theorem exists_trace_of_run {d d' : Debugger} {fuel : Nat} {result : Except Cpu.Error Unit}
    (h : d.run fuel = some (result, d')) :
    ∃ es o, d.Trace es (.done o) ∧ result = o.result ∧ d' = ⟨o.close.computer, o.state⟩ := by
  simp only [Debugger.run, Option.map_eq_some_iff] at h
  obtain ⟨⟨b, o⟩, hobserve, heq⟩ := h
  cases heq
  obtain ⟨es, -, o', htrace, rfl, -, -⟩ := exists_trace_of_observe hobserve
  exact ⟨es, o', htrace, rfl, rfl⟩

/-- **What is at the end of a trace is returned by a run.** -/
theorem exists_run_of_trace {d : Debugger} {es : List Happening} {o : Outcome Session}
    (h : d.Trace es (.done o)) :
    ∃ fuel, d.run fuel = some (o.result, ⟨o.close.computer, o.state⟩) := by
  obtain ⟨rest, events, t, hrest, hturns, -⟩ := turns_of_path h
  have hover : t = .over o := by
    cases t with
    | next l => cases (Path.of_done hrest).2
    | «over» o' =>
        cases (Path.of_done hrest).2
        rfl
  subst hover
  have hobserve : ∃ fuel, d.computer.observe Session.hook (fun _ _ => ()) () fuel d.openSession
      = some ((), o.close) := Computer.observe_iff.mpr ⟨events, o, hturns, rfl, rfl⟩
  obtain ⟨fuel, hobserve⟩ := hobserve
  refine ⟨fuel, ?_⟩
  simp only [Debugger.run, Debugger.observe, hobserve, Option.map_some]
  rfl

/-- Runs return nothing else. -/
theorem run_eq_of_trace {d d' : Debugger} {es : List Happening} {o : Outcome Session}
    {fuel : Nat} {result : Except Cpu.Error Unit} (h : d.Trace es (.done o))
    (hrun : d.run fuel = some (result, d')) :
    result = o.result ∧ d' = ⟨o.close.computer, o.state⟩ := by
  obtain ⟨es', o', htrace, rfl, rfl⟩ := exists_trace_of_run hrun
  have hsame : o' = o := by
    rcases Path.total h htrace with ⟨rest, -, hrest⟩ | ⟨rest, -, hrest⟩
    · exact Moment.done.inj (Path.of_done hrest).2
    · exact (Moment.done.inj (Path.of_done hrest).2).symm
  subst hsame
  exact ⟨rfl, rfl⟩

/-- What the traces of a debugger and its runs have to do with each other. -/
structure TracesAreRuns (d : Debugger) : Prop where
  /-- Wherever the loop gets, a trace leads there, with the same stops and instructions. -/
  ofTurns : ∀ (events : List Event) (t : Turn Session),
    Loop.Turns Session.hook (Loop.start d.computer d.openSession) events t →
    ∃ es, d.Trace es (ofTurn t) ∧
      es.filterMap Happening.mark? = events.filterMap Event.mark?
  /-- Every trace is the beginning of one that leads to where the loop gets. -/
  toTurns : ∀ (es : List Happening) (m : Moment), d.Trace es m →
    ∃ rest events t, d.Trace (es ++ rest) (ofTurn t) ∧
      Loop.Turns Session.hook (Loop.start d.computer d.openSession) events t ∧
      (es ++ rest).filterMap Happening.mark? = events.filterMap Event.mark?
  /-- What an observer of a run is told is what happens on a trace to its end. -/
  observed : ∀ {α : Type} (observer : α → Event → α) (a b : α) (fuel : Nat)
    (o : Outcome Session), d.observe observer a fuel = some (b, o) →
    ∃ (es : List Happening) (events : List Event) (o' : Outcome Session),
      d.Trace es (.done o') ∧ o = o'.close ∧ b = events.foldl observer a ∧
      es.filterMap Happening.mark? = events.filterMap Event.mark?
  /-- Runs return what is at the end of a trace, and nothing else. -/
  returned : ∀ (result : Except Cpu.Error Unit) (d' : Debugger),
    (∃ fuel, d.run fuel = some (result, d')) ↔
      ∃ es o, d.Trace es (.done o) ∧ result = o.result ∧ d' = ⟨o.close.computer, o.state⟩

/-- **Traces are runs**, also traces of runs that are still going on. -/
theorem tracesAreRuns (d : Debugger) : TracesAreRuns d where
  ofTurns events t h := path_of_turns h
  toTurns es m h := by
    obtain ⟨rest, events, t, hrest, hturns, hmarks⟩ := turns_of_path h
    exact ⟨rest, events, t, Path.append h hrest, hturns, hmarks⟩
  observed observer a b fuel o h := exists_trace_of_observe h
  returned result d' := by
    constructor
    · rintro ⟨fuel, h⟩
      exact exists_trace_of_run h
    · rintro ⟨es, o, htrace, rfl, rfl⟩
      exact exists_run_of_trace htrace

end Debugger

end Mailroom
