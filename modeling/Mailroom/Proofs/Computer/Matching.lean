/-
Hooks that cannot be told apart.

All that a run sees of its hook are the answers it gives, the computers it leaves behind and
what it reports.  Two hooks match if they agree in these whenever their states are related,
and keep the states related.  The loop then does the same under both of them, turn by turn
(`turns_of_matches`, `turns_of_matches'`), and what it returns under the same bound differs in
the state of the hook at most (`observe_matches`).
-/
import Mailroom.Proofs.Computer.Turn

namespace Mailroom

variable {σ τ : Type} {R : σ → τ → Prop}

/-! ### Matching -/

/-- The same reaction but for the states, which are related. -/
structure Reaction.Matches (R : σ → τ → Prop) (r : Reaction σ) (r' : Reaction τ) : Prop where
  answer : r'.answer = r.answer
  computer : r'.computer = r.computer
  notes : r'.notes = r.notes
  state : R r.state r'.state

/-- In related states the hooks do the same, and the states stay related. -/
structure Hook.Matches (R : σ → τ → Prop) (h : Hook σ) (h' : Hook τ) : Prop where
  shouldStop : ∀ c s s', R s s' → (h'.shouldStop c s').1 = (h.shouldStop c s).1 ∧
    R (h.shouldStop c s).2 (h'.shouldStop c s').2
  onStop : ∀ why c s s', R s s' → (h.onStop why c s).Matches R (h'.onStop why c s')

/-- The same outcome but for the states. -/
structure Outcome.Matches (R : σ → τ → Prop) (o : Outcome σ) (o' : Outcome τ) : Prop where
  result : o'.result = o.result
  computer : o'.computer = o.computer
  state : R o.state o'.state

/-- The same state of the loop but for the states of the hooks. -/
structure Loop.Matches (R : σ → τ → Prop) (l : Loop σ) (l' : Loop τ) : Prop where
  computer : l'.computer = l.computer
  state : R l.state l'.state
  resumed : l'.resumed = l.resumed

/-- The loops go on together or are over together. -/
inductive Turn.Matches (R : σ → τ → Prop) : Turn σ → Turn τ → Prop
  | next {l : Loop σ} {l' : Loop τ} (h : l.Matches R l') : Matches R (.next l) (.next l')
  | over {o : Outcome σ} {o' : Outcome τ} (h : o.Matches R o') : Matches R (.over o) (.over o')

theorem Outcome.Matches.close {o : Outcome σ} {o' : Outcome τ} (h : o.Matches R o') :
    o.close.Matches R o'.close where
  result := h.result
  computer := congrArg (Computer.setPc · none) h.computer
  state := h.state

/-! ### One turn -/

theorem Reaction.Matches.turn {r : Reaction σ} {r' : Reaction τ} (h : r.Matches R r')
    (why : Stop) : (r.turn why).Matches R (r'.turn why) := by
  obtain ⟨answer, computer, state, notes⟩ := r
  obtain ⟨answer', computer', state', notes'⟩ := r'
  obtain ⟨rfl, rfl, -, hstate⟩ := h
  cases answer' with
  | error e => exact .over ⟨rfl, rfl, hstate⟩
  | ok resume =>
      cases resume with
      | quit => exact .over ⟨rfl, rfl, hstate⟩
      | «continue» =>
          simp only [Reaction.turn]
          split
          · exact .over ⟨rfl, rfl, hstate⟩
          · exact .next ⟨rfl, hstate, rfl⟩

namespace Loop

variable {h : Hook σ} {h' : Hook τ} {l : Loop σ} {l' : Loop τ}

theorem Matches.tick (hl : l.Matches R l') :
    l'.tick.1 = l.tick.1 ∧ l.tick.2.Matches R l'.tick.2 := by
  obtain ⟨c, s, resumed⟩ := l
  obtain ⟨c', s', resumed'⟩ := l'
  obtain ⟨rfl, hstate, rfl⟩ := hl
  simp only [Loop.tick]
  cases Cpu.tick c'.program c'.jumps c'.cpu with
  | ok _ cpu => exact ⟨rfl, .next ⟨rfl, hstate, rfl⟩⟩
  | error e cpu =>
      cases e with
      | inboxEmpty => exact ⟨rfl, .next ⟨rfl, hstate, rfl⟩⟩
      | memory _ | accumulatorEmpty | incompatibleTypes _ _ | noSuchJumpDestination _ | overflow _
      | halted => exact ⟨rfl, .over ⟨rfl, rfl, hstate⟩⟩

theorem Matches.finish (hh : h.Matches R h') (hl : l.Matches R l') :
    (l'.finish h').1 = (l.finish h).1 ∧ (l.finish h).2.Matches R (l'.finish h').2 := by
  have hr := hh.onStop .finished (l.computer.setHalted true) l.state l'.state hl.state
  rw [finish_eq h l rfl, finish_eq h' l' rfl, hl.computer]
  refine ⟨?_, hr.turn .finished⟩
  simp only [hr.answer, hr.computer, hr.notes]

theorem Matches.interrupt (hh : h.Matches R h') (hl : l.Matches R l') :
    (l'.interrupt h').1 = (l.interrupt h).1 ∧
      (l.interrupt h).2.Matches R (l'.interrupt h').2 := by
  have hr := hh.onStop .break l.computer l.state l'.state hl.state
  rw [interrupt_eq h l rfl, interrupt_eq h' l' rfl, hl.computer]
  refine ⟨?_, hr.turn .break⟩
  simp only [hr.answer, hr.computer, hr.notes]

/-- **A turn makes the same events under matching hooks**, and the loops still match. -/
theorem Matches.turn (hh : h.Matches R h') (hl : l.Matches R l') :
    (l'.turn h').1 = (l.turn h).1 ∧ (l.turn h).2.Matches R (l'.turn h').2 := by
  cases hrun : l.computer.isRunning with
  | false =>
      rw [turn_of_end hrun, turn_of_end (hl.computer ▸ hrun)]
      exact hl.finish hh
  | true =>
      have hrun' : l'.computer.isRunning = true := hl.computer ▸ hrun
      cases hresumed : l.resumed with
      | true =>
          rw [turn_of_cleared hrun (.resumed hresumed),
            turn_of_cleared hrun' (.resumed (hl.resumed ▸ hresumed))]
          exact hl.tick
      | false =>
          have hresumed' : l'.resumed = false := hl.resumed ▸ hresumed
          obtain ⟨hanswer, hasked⟩ := hh.shouldStop l.computer l.state l'.state hl.state
          rcases hask : h.shouldStop l.computer l.state with ⟨stop, s⟩
          rcases hask' : h'.shouldStop l.computer l'.state with ⟨stop', s'⟩
          rw [hask, hask'] at hanswer hasked
          cases hanswer
          rw [← hl.computer] at hask'
          have hl₁ : Matches R { l with state := s } { l' with state := s' } :=
            ⟨hl.computer, hasked, hl.resumed⟩
          cases stop with
          | true =>
              rw [turn_of_break hrun hresumed hask, turn_of_break hrun' hresumed' hask']
              obtain ⟨hevents, hmatch⟩ := hl₁.interrupt hh
              exact ⟨by rw [hevents, hl.computer], hmatch⟩
          | false =>
              rw [turn_of_cleared hrun (.asked hresumed hask),
                turn_of_cleared hrun' (.asked hresumed' hask')]
              obtain ⟨hevents, hmatch⟩ := hl₁.tick
              exact ⟨by rw [hevents, hl.computer], hmatch⟩

/-! ### Many turns -/

theorem turns_of_matches {es : List Event} {t : Turn σ} (hh : h.Matches R h')
    (hl : l.Matches R l') (hturns : Turns h l es t) :
    ∃ t', Turns h' l' es t' ∧ t.Matches R t' := by
  induction hturns with
  | start => exact ⟨.next l', .start, .next hl⟩
  | @snoc es es₁ l₁ t before last ih =>
      obtain ⟨t', hbefore, hmatch⟩ := ih
      cases hmatch with
      | @next _ l₁' hl₁ =>
          have hturn := hl₁.turn hh
          rw [last] at hturn
          exact ⟨_, .snoc hbefore (Prod.ext hturn.1 rfl), hturn.2⟩

theorem turns_of_matches' {es : List Event} {t' : Turn τ} (hh : h.Matches R h')
    (hl : l.Matches R l') (hturns : Turns h' l' es t') :
    ∃ t, Turns h l es t ∧ t.Matches R t' := by
  induction hturns with
  | start => exact ⟨.next l, .start, .next hl⟩
  | @snoc es es₁ l₁' t' before last ih =>
      obtain ⟨t, hbefore, hmatch⟩ := ih
      cases hmatch with
      | @next l₁ _ hl₁ =>
          have hturn := hl₁.turn hh
          rw [last] at hturn
          exact ⟨_, .snoc hbefore (Prod.ext hturn.1.symm rfl), hturn.2⟩

/-- Under the same bound the loop ends with both hooks or with none of them. -/
theorem drive_matches {α : Type} (observer : α → Event → α) (hh : h.Matches R h') :
    ∀ (fuel : Nat) (a : α) {l : Loop σ} {l' : Loop τ}, l.Matches R l' →
      Option.Rel (fun x x' => x'.1 = x.1 ∧ x.2.Matches R x'.2)
        (l.drive h observer fuel a) (l'.drive h' observer fuel a) := by
  intro fuel
  induction fuel with
  | zero => intro a l l' _; exact .none
  | succ fuel ih =>
      intro a l l' hl
      obtain ⟨hevents, hmatch⟩ := hl.turn hh
      rcases hturn : l.turn h with ⟨es, t⟩
      rcases hturn' : l'.turn h' with ⟨es', t'⟩
      rw [hturn, hturn'] at hevents hmatch
      cases hevents
      simp only [drive, hturn, hturn']
      cases hmatch with
      | next hnext => exact ih _ hnext
      | «over» hover => exact .some ⟨rfl, hover⟩

end Loop

/-! ### Runs -/

/-- **A run under a matching hook is observed alike and returns the same** but for the state. -/
theorem Computer.observe_matches {α : Type} {h : Hook σ} {h' : Hook τ} (hh : h.Matches R h')
    (observer : α → Event → α) (a : α) (fuel : Nat) (c : Computer) {s : σ} {s' : τ}
    (hs : R s s') :
    Option.Rel (fun x x' => x'.1 = x.1 ∧ x.2.Matches R x'.2)
      (c.observe h observer a fuel s) (c.observe h' observer a fuel s') := by
  have hstart : (Loop.start c s).Matches R (Loop.start c s') := ⟨rfl, hs, rfl⟩
  have hdrive := Loop.drive_matches observer hh fuel a hstart
  unfold observe
  generalize (Loop.start c s).drive h observer fuel a = x at hdrive ⊢
  generalize (Loop.start c s').drive h' observer fuel a = x' at hdrive ⊢
  cases hdrive with
  | none => exact .none
  | some hsame => exact .some ⟨hsame.1, hsame.2.close⟩

end Mailroom
