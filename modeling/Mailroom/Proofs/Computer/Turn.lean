/-
The loop of a run, one turn after the other, under any hook.

A hook may leave behind any computer at all, so little can be said of a turn by looking
at the turns before it.  What a turn can do is therefore said once, for a loop in any
state: `Turned` lists the cases, with the events that tell of them, and `exists_turned`
shows that there are no others.

`Turns` strings turns together.  A run may never end, but what can be said about all that
happens in it can be said about the events of finitely many turns.  `returns_iff` ties
such strings to the bounded loop: a run returns an outcome, under some bound, exactly if
some string of turns leads to it.
-/
import Mailroom.Computer.Run
import Mailroom.Proofs.Cpu.Tick

namespace Mailroom

/-! ### Running computers -/

namespace Computer

theorem isRunning_iff {c : Computer} :
    c.isRunning = true ↔ c.cpu.halted = false ∧ Cpu.Inside c.program c.cpu :=
  Cpu.next?_isSome

theorem not_running_of_halted {c : Computer} (h : c.cpu.halted = true) :
    c.isRunning = false := by
  rw [Bool.eq_false_iff]
  intro hrun
  rw [(isRunning_iff.mp hrun).1] at h
  cases h

theorem not_running_of_outside {c : Computer} (h : ¬ Cpu.Inside c.program c.cpu) :
    c.isRunning = false := by
  rw [Bool.eq_false_iff]
  intro hrun
  exact h (isRunning_iff.mp hrun).2

end Computer

/-! ### One instruction in the loop -/

namespace Loop

variable {σ : Type} {l : Loop σ} {cpu : Cpu}

theorem tick_of_ok (h : Cpu.tick l.computer.program l.computer.jumps l.computer.cpu
      = .ok () cpu) :
    l.tick = ([.ticked l.computer { l.computer with cpu } (.ok ())],
      .next ⟨{ l.computer with cpu }, l.state, false⟩) := by
  simp only [tick, h]

theorem tick_of_inboxEmpty (h : Cpu.tick l.computer.program l.computer.jumps l.computer.cpu
      = .error .inboxEmpty cpu) :
    l.tick = ([.ticked l.computer { l.computer with cpu := { cpu with halted := true } }
        (.error .inboxEmpty)],
      .next ⟨{ l.computer with cpu := { cpu with halted := true } }, l.state, false⟩) := by
  simp only [tick, h]

theorem tick_of_error {e : Cpu.Error} (h : Cpu.tick l.computer.program l.computer.jumps
      l.computer.cpu = .error e cpu) (he : e ≠ .inboxEmpty) :
    l.tick = ([.ticked l.computer { l.computer with cpu } (.error e)],
      .over ⟨.error e, { l.computer with cpu }, l.state⟩) := by
  cases e with
  | inboxEmpty => exact absurd rfl he
  | memory _ | accumulatorEmpty | incompatibleTypes _ _ | noSuchJumpDestination _ | overflow _
  | halted => simp only [tick, h]

end Loop

/-! ### One turn -/

section

variable {σ : Type}

/-- How the loop goes on when the hook gives control back. -/
def Reaction.turn (r : Reaction σ) (why : Stop) : Turn σ :=
  match r.answer with
  | .error e => .over ⟨.error e, r.computer, r.state⟩
  | .ok .quit => .over ⟨.ok (), r.computer, r.state⟩
  | .ok .continue =>
    if why = .finished ∧ r.computer.cpu.halted = true then .over ⟨.ok (), r.computer, r.state⟩
    else .next ⟨r.computer, r.state, true⟩

theorem Reaction.turn_eq_next {r : Reaction σ} {why : Stop} {l : Loop σ} :
    r.turn why = .next l ↔ r.answer = .ok .continue ∧
      (why = .finished → r.computer.cpu.halted = false) ∧ l = ⟨r.computer, r.state, true⟩ := by
  obtain ⟨answer, computer, state, notes⟩ := r
  cases answer with
  | error e => simp [turn]
  | ok resume =>
      cases resume with
      | quit => simp [turn]
      | «continue» =>
          by_cases hended : why = .finished ∧ computer.cpu.halted = true
          · simp [turn, hended]
          · simp only [turn, if_neg hended, Turn.next.injEq, true_and, eq_comm (a := l)]
            rw [not_and, Bool.not_eq_true] at hended
            simp only [iff_and_self]
            intro _
            exact hended

theorem Reaction.turn_of_quit {r : Reaction σ} {why : Stop} (h : r.answer = .ok .quit) :
    r.turn why = .over ⟨.ok (), r.computer, r.state⟩ := by
  simp only [turn, h]

theorem Reaction.turn_eq_over {r : Reaction σ} {why : Stop} {o : Outcome σ}
    (h : r.turn why = .over o) :
    o.computer = r.computer ∧ ∀ e, o.result = .error e ↔ r.answer = .error e := by
  obtain ⟨answer, computer, state, notes⟩ := r
  cases answer with
  | error e =>
      cases h
      simp
  | ok resume =>
      cases resume with
      | quit =>
          cases h
          simp
      | «continue» =>
          simp only [turn] at h
          split at h
          · cases h
            simp
          · cases h

namespace Loop

theorem finish_eq (h : Hook σ) (l : Loop σ) {r : Reaction σ}
    (hr : r = h.onStop .finished (l.computer.setHalted true) l.state) :
    l.finish h = ([.stopped .finished (l.computer.setHalted true) r.computer r.answer r.notes],
      r.turn .finished) := by
  simp only [finish, ← hr]
  obtain ⟨answer, computer, state, notes⟩ := r
  cases answer with
  | error e => rfl
  | ok resume =>
      cases resume with
      | quit => rfl
      | «continue» =>
          cases hhalted : computer.cpu.halted <;>
            simp only [Reaction.turn, hhalted, Bool.false_eq_true, and_false,
              if_false, if_true, and_self]

theorem interrupt_eq (h : Hook σ) (l : Loop σ) {r : Reaction σ}
    (hr : r = h.onStop .break l.computer l.state) :
    l.interrupt h = ([.stopped .break l.computer r.computer r.answer r.notes], r.turn .break) := by
  simp only [interrupt, ← hr]
  obtain ⟨answer, computer, state, notes⟩ := r
  cases answer with
  | error e => rfl
  | ok resume => cases resume <;> rfl

/--
What goes before an instruction that is not interrupted, and the state in which it leaves
the hook: nothing right after a stop, and else a question that the hook answers with no.
-/
inductive Cleared (h : Hook σ) (l : Loop σ) : List Event → σ → Prop
  | resumed (hresumed : l.resumed = true) : Cleared h l [] l.state
  | asked {s : σ} (hresumed : l.resumed = false)
      (hask : h.shouldStop l.computer l.state = (false, s)) :
      Cleared h l [.asked l.computer false] s

/--
`Turned h l es e t`: a turn of `l` can go by with the events `es` and at last `e`, and lead
to `t`.
-/
inductive Turned (h : Hook σ) (l : Loop σ) : List Event → Event → Turn σ → Prop
  /-- The program is at its end. -/
  | finish {before : Computer} {r : Reaction σ} (hrun : l.computer.isRunning = false)
      (hbefore : before = l.computer.setHalted true)
      (hr : r = h.onStop .finished before l.state) :
      Turned h l [] (.stopped .finished before r.computer r.answer r.notes) (r.turn .finished)
  /-- The hook asks for a stop. -/
  | break {s : σ} {r : Reaction σ} (hrun : l.computer.isRunning = true)
      (hresumed : l.resumed = false) (hask : h.shouldStop l.computer l.state = (true, s))
      (hr : r = h.onStop .break l.computer s) :
      Turned h l [.asked l.computer true]
        (.stopped .break l.computer r.computer r.answer r.notes) (r.turn .break)
  /-- An instruction is executed. -/
  | tick {asked : List Event} {s : σ} {cpu : Cpu} (hrun : l.computer.isRunning = true)
      (hclear : Cleared h l asked s)
      (htick : Cpu.tick l.computer.program l.computer.jumps l.computer.cpu = .ok () cpu) :
      Turned h l asked (.ticked l.computer { l.computer with cpu } (.ok ()))
        (.next ⟨{ l.computer with cpu }, s, false⟩)
  /-- The inbox runs dry. -/
  | dry {asked : List Event} {s : σ} (hrun : l.computer.isRunning = true)
      (hclear : Cleared h l asked s)
      (htick : Cpu.tick l.computer.program l.computer.jumps l.computer.cpu
        = .error .inboxEmpty l.computer.cpu) :
      Turned h l asked (.ticked l.computer (l.computer.setHalted true) (.error .inboxEmpty))
        (.next ⟨l.computer.setHalted true, s, false⟩)
  /-- An instruction fails for good. -/
  | fail {asked : List Event} {s : σ} {e : Cpu.Error} (hrun : l.computer.isRunning = true)
      (hclear : Cleared h l asked s)
      (htick : Cpu.tick l.computer.program l.computer.jumps l.computer.cpu
        = .error e l.computer.cpu) (he : e ≠ .inboxEmpty) :
      Turned h l asked (.ticked l.computer l.computer (.error e))
        (.over ⟨.error e, l.computer, s⟩)

variable {h : Hook σ} {l : Loop σ}

theorem turn_of_end (hrun : l.computer.isRunning = false) : l.turn h = l.finish h := by
  simp only [turn, hrun, Bool.not_false, if_true]

theorem turn_of_break {s : σ} (hrun : l.computer.isRunning = true)
    (hresumed : l.resumed = false) (hask : h.shouldStop l.computer l.state = (true, s)) :
    l.turn h = (.asked l.computer true :: (interrupt h { l with state := s }).1,
      (interrupt h { l with state := s }).2) := by
  simp only [turn, hrun, hresumed, hask, Bool.not_true, Bool.false_eq_true, if_false, if_true]

theorem turn_of_cleared {asked : List Event} {s : σ} (hrun : l.computer.isRunning = true)
    (hclear : Cleared h l asked s) :
    l.turn h = (asked ++ (tick { l with state := s }).1, (tick { l with state := s }).2) := by
  cases hclear with
  | resumed hresumed =>
      simp only [turn, hrun, hresumed, Bool.not_true, Bool.false_eq_true, if_false, if_true]
      rfl
  | asked hresumed hask =>
      simp only [turn, hrun, hresumed, hask, Bool.not_true, Bool.false_eq_true, if_false]
      rfl

/-- A turn that attempts an instruction. -/
theorem turned_of_cleared {asked : List Event} {s : σ} (hrun : l.computer.isRunning = true)
    (hclear : Cleared h l asked s) :
    ∃ e t, l.turn h = (asked ++ [e], t) ∧ Turned h l asked e t := by
  rw [turn_of_cleared hrun hclear]
  cases htick : Cpu.tick l.computer.program l.computer.jumps l.computer.cpu with
  | ok _ cpu =>
      rw [tick_of_ok (l := { l with state := s }) htick]
      exact ⟨_, _, rfl, .tick hrun hclear htick⟩
  | error e cpu =>
      obtain ⟨-, rfl⟩ := Cpu.tick_eq_error.mp htick
      by_cases he : e = .inboxEmpty
      · subst he
        rw [tick_of_inboxEmpty (l := { l with state := s }) htick]
        exact ⟨_, _, rfl, .dry hrun hclear htick⟩
      · rw [tick_of_error (l := { l with state := s }) htick he]
        exact ⟨_, _, rfl, .fail hrun hclear htick he⟩

/-- **Whatever happens in a turn is one of the cases of `Turned`.** -/
theorem exists_turned (h : Hook σ) (l : Loop σ) :
    ∃ es e t, l.turn h = (es ++ [e], t) ∧ Turned h l es e t := by
  cases hrun : l.computer.isRunning with
  | false =>
      rw [turn_of_end hrun, finish_eq h l rfl]
      exact ⟨[], _, _, rfl, .finish hrun rfl rfl⟩
  | true =>
      cases hresumed : l.resumed with
      | true => exact ⟨[], turned_of_cleared hrun (.resumed hresumed)⟩
      | false =>
          rcases hask : h.shouldStop l.computer l.state with ⟨stop, s⟩
          cases stop with
          | false => exact ⟨_, turned_of_cleared hrun (.asked hresumed hask)⟩
          | true =>
              rw [turn_of_break hrun hresumed hask, interrupt_eq h { l with state := s } rfl]
              exact ⟨[.asked l.computer true], _, _, rfl, .break hrun hresumed hask rfl⟩

/-! ### Many turns -/

/-- `Turns h l es t`: turns of the loop from `l` on make `es` happen and lead to `t`. -/
inductive Turns (h : Hook σ) (l : Loop σ) : List Event → Turn σ → Prop
  | start : Turns h l [] (.next l)
  | snoc {es es' : List Event} {l' : Loop σ} {t : Turn σ} (before : Turns h l es (.next l'))
      (last : l'.turn h = (es', t)) : Turns h l (es ++ es') t

namespace Turns

variable {l' : Loop σ} {es es' : List Event} {t : Turn σ}

theorem single (hturn : l.turn h = (es, t)) : Turns h l es t := by
  rw [← List.nil_append es]
  exact .snoc .start hturn

theorem append (first : Turns h l es (.next l')) (rest : Turns h l' es' t) :
    Turns h l (es ++ es') t := by
  induction rest with
  | start => rw [List.append_nil]; exact first
  | snoc _ last ih =>
      rw [← List.append_assoc]
      exact .snoc ih last

theorem nil_eq (hturns : Turns h l [] t) : t = .next l := by
  generalize hes : ([] : List Event) = es at hturns
  cases hturns with
  | start => rfl
  | @snoc es es' l₁ _ before last =>
      obtain ⟨es₂, e, t', hturn, -⟩ := exists_turned h l₁
      rw [hturn] at last
      cases last
      simp at hes

/-- The last event is the last one of a turn. -/
theorem last {e : Event} (hturns : Turns h l (es ++ [e]) t) :
    ∃ es₁ l₁ es₂, Turns h l es₁ (.next l₁) ∧ es = es₁ ++ es₂ ∧ Turned h l₁ es₂ e t := by
  generalize hes : es ++ [e] = whole at hturns
  cases hturns with
  | start => simp at hes
  | @snoc es₁ es' l₁ _ before last =>
      obtain ⟨es₂, e', t', hturn, hturned⟩ := exists_turned h l₁
      rw [hturn] at last
      cases last
      rw [← List.append_assoc] at hes
      obtain ⟨rfl, he⟩ := List.append_inj' hes rfl
      cases he
      exact ⟨es₁, l₁, es₂, before, rfl, hturned⟩

/-- Turns that the loop has made can be taken off its bound. -/
theorem drive_add {α : Type} (observer : α → Event → α) (hturns : Turns h l es (.next l')) :
    ∃ n, ∀ fuel a, l.drive h observer (fuel + n) a
      = l'.drive h observer fuel (es.foldl observer a) := by
  generalize ht : Turn.next l' = t at hturns
  induction hturns generalizing l' with
  | start =>
      cases ht
      exact ⟨0, fun _ _ => rfl⟩
  | @snoc es es' l₁ t before last ih =>
      obtain ⟨n, hn⟩ := ih rfl
      refine ⟨n + 1, ?_⟩
      intro fuel a
      subst ht
      rw [show fuel + (n + 1) = fuel + 1 + n by omega, hn, List.foldl_append]
      simp only [drive, last]

end Turns

/-- The turns of a loop that was driven to its end. -/
theorem turns_of_drive {α : Type} {observer : α → Event → α} {o : Outcome σ} {b : α} :
    ∀ (fuel : Nat) (a : α) (l : Loop σ), l.drive h observer fuel a = some (b, o) →
      ∃ es, Turns h l es (.over o) ∧ b = es.foldl observer a := by
  intro fuel
  induction fuel with
  | zero => intro a l hdrive; cases hdrive
  | succ fuel ih =>
      intro a l hdrive
      rcases hturn : l.turn h with ⟨es, t⟩
      simp only [drive, hturn] at hdrive
      cases t with
      | «over» o' =>
          cases hdrive
          exact ⟨es, Turns.single hturn, rfl⟩
      | next l' =>
          obtain ⟨es', hturns, hb⟩ := ih _ l' hdrive
          refine ⟨es ++ es', (Turns.single hturn).append hturns, ?_⟩
          rw [List.foldl_append, hb]

/-- Turns to the end are made under some bound. -/
theorem drive_of_turns {α : Type} (observer : α → Event → α) (a : α) {es : List Event}
    {o : Outcome σ} (hturns : Turns h l es (.over o)) :
    ∃ fuel, l.drive h observer fuel a = some (es.foldl observer a, o) := by
  cases hturns with
  | @snoc es es' l' _ before last =>
      obtain ⟨n, hn⟩ := before.drive_add observer
      refine ⟨1 + n, ?_⟩
      rw [hn, List.foldl_append]
      simp only [drive, last]

/-- A larger bound changes nothing. -/
theorem drive_mono {α : Type} {observer : α → Event → α} {x : α × Outcome σ} :
    ∀ (fuel n : Nat) (a : α) (l : Loop σ), l.drive h observer fuel a = some x →
      l.drive h observer (fuel + n) a = some x := by
  intro fuel
  induction fuel with
  | zero => intro n a l hdrive; cases hdrive
  | succ fuel ih =>
      intro n a l hdrive
      rw [show fuel + 1 + n = fuel + n + 1 by omega]
      rcases hturn : l.turn h with ⟨es, t⟩
      simp only [drive, hturn] at hdrive ⊢
      cases t with
      | «over» o => exact hdrive
      | next l' => exact ih n _ l' hdrive

end Loop

end

/-- What is read off the events of a run grows with each event. -/
theorem filterMap_concat {α β : Type} (f : α → Option β) (as : List α) (a : α) :
    (as ++ [a]).filterMap f = as.filterMap f ++ (f a).toList := by
  cases h : f a <;> simp [h]

/-! ### Runs -/

namespace Computer

open Loop

variable {σ : Type} {h : Hook σ} {c : Computer} {s : σ} {o o' : Outcome σ}

/-- A run of `c` under the hook comes to an end, and `o` is its outcome. -/
def Returns (h : Hook σ) (c : Computer) (s : σ) (o : Outcome σ) : Prop :=
  ∃ fuel, c.runWith h fuel s = some o

/-- **An observed run shows the events of its turns and returns what they lead to.** -/
theorem observe_iff {α : Type} {observer : α → Event → α} {a b : α} :
    (∃ fuel, c.observe h observer a fuel s = some (b, o)) ↔
      ∃ es o', Turns h (Loop.start c s) es (.over o') ∧ b = es.foldl observer a ∧
        o = o'.close := by
  constructor
  · rintro ⟨fuel, hrun⟩
    simp only [observe, Option.map_eq_some_iff, Prod.exists] at hrun
    obtain ⟨b', o', hdrive, heq⟩ := hrun
    cases heq
    obtain ⟨es, hturns, hb⟩ := turns_of_drive fuel a _ hdrive
    exact ⟨es, o', hturns, hb, rfl⟩
  · rintro ⟨es, o', hturns, rfl, rfl⟩
    obtain ⟨fuel, hdrive⟩ := drive_of_turns observer a hturns
    refine ⟨fuel, ?_⟩
    simp only [observe, hdrive, Option.map_some]

/-- A run without an observer returns the same. -/
theorem returns_iff :
    c.Returns h s o ↔ ∃ es o', Turns h (Loop.start c s) es (.over o') ∧ o = o'.close := by
  have hobserve : c.Returns h s o ↔
      ∃ fuel, c.observe h (fun _ _ => ()) () fuel s = some ((), o) := by
    simp only [Returns, runWith, Option.map_eq_some_iff, Prod.exists, exists_eq_right]
    exact exists_congr fun fuel => ⟨fun ⟨_, hrun⟩ => hrun, fun hrun => ⟨(), hrun⟩⟩
  rw [hobserve, observe_iff]
  simp only [true_and]

/-- A run has one outcome, whatever bound it is found under. -/
theorem Returns.unique (hrun : c.Returns h s o) (hrun' : c.Returns h s o') : o = o' := by
  obtain ⟨fuel, hrun⟩ := hrun
  obtain ⟨fuel', hrun'⟩ := hrun'
  simp only [runWith, observe, Option.map_eq_some_iff] at hrun hrun'
  obtain ⟨_, ⟨x, hdrive, rfl⟩, rfl⟩ := hrun
  obtain ⟨_, ⟨x', hdrive', rfl⟩, rfl⟩ := hrun'
  have hmore := drive_mono fuel fuel' () _ hdrive
  have hmore' := drive_mono fuel' fuel () _ hdrive'
  rw [Nat.add_comm, hmore] at hmore'
  cases hmore'
  rfl

end Computer

end Mailroom
