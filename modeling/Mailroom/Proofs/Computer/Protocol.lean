/-
What a hook can rely on.

At a stop a hook may leave any computer behind: another step, another program, the
`halted` flag set or cleared.  The loop looks at the computer again at the beginning of
each turn, and that is why the guarantees of `Protocol` hold under every hook.  They are
stated about `Happens`, the first events of a run, as many as one likes, since the run
itself may never end.

All of them are found out from two facts.  The last event of a turn tells which turn it
was (`Loop.Turns.last`), and between turns the loop knows no more than its events do:
the computer is the one that the last event left behind (`Loop.Turns.computer_eq`), and
the hook is due to be asked only at the very beginning or after an instruction
(`Loop.Turns.due`).
-/
import Mailroom.Proofs.Computer.Turn
import Mailroom.Proofs.Cpu.Failure

namespace Mailroom

variable {σ : Type}

/-- The computer that an event leaves behind. -/
def Event.after : Event → Computer
  | asked c _ => c
  | stopped _ _ after _ _ => after
  | ticked _ after _ => after

/-- The computer that some events leave behind if they begin with `c`. -/
def Computer.after (c : Computer) (es : List Event) : Computer :=
  es.foldl (fun _ e => e.after) c

@[simp] theorem Computer.after_append_singleton (c : Computer) (es : List Event) (e : Event) :
    c.after (es ++ [e]) = e.after := by
  simp [after]

/-- The computer between two turns, or at the end. -/
def Turn.computer : Turn σ → Computer
  | .next l => l.computer
  | .over o => o.computer

namespace Loop

variable {h : Hook σ} {l : Loop σ} {es : List Event} {e : Event} {t : Turn σ}

/-! ### What the loop knows between two turns -/

theorem Turned.computer_eq (hturned : Turned h l es e t) : t.computer = e.after := by
  have hstop : ∀ (r : Reaction σ) (why : Stop), (r.turn why).computer = r.computer := by
    intro r why
    cases hturn : r.turn why with
    | next l' =>
        obtain ⟨-, -, rfl⟩ := Reaction.turn_eq_next.mp hturn
        rfl
    | «over» o => exact (Reaction.turn_eq_over hturn).1
  cases hturned with
  | finish hrun hbefore hr => exact hstop _ _
  | «break» hrun hresumed hask hr => exact hstop _ _
  | tick hrun hclear htick => rfl
  | dry hrun hclear htick => rfl
  | fail hrun hclear htick he => rfl

/-- The loop goes on with the computer that the last event left behind. -/
theorem Turns.computer_eq (hturns : Turns h l es t) : t.computer = l.computer.after es := by
  rcases List.eq_nil_or_concat es with rfl | ⟨es, e, rfl⟩
  · rw [hturns.nil_eq]
    rfl
  · rw [List.concat_eq_append] at hturns ⊢
    obtain ⟨_, _, _, -, -, hturned⟩ := hturns.last
    rw [Computer.after_append_singleton, hturned.computer_eq]

/-- After a turn the hook is due to be asked only if the turn was an instruction. -/
theorem Turned.due {l' : Loop σ} (hturned : Turned h l es e (.next l'))
    (hresumed : l'.resumed = false) : ∃ before after result, e = .ticked before after result := by
  have hstop : ∀ (r : Reaction σ) (why : Stop), Turn.next l' ≠ r.turn why := by
    intro r why hturn
    obtain ⟨-, -, rfl⟩ := Reaction.turn_eq_next.mp hturn.symm
    cases hresumed
  generalize ht : Turn.next l' = t at hturned
  cases hturned with
  | finish hrun hbefore hr => exact absurd ht (hstop _ _)
  | «break» hrun hresumed hask hr => exact absurd ht (hstop _ _)
  | tick | dry | fail => exact ⟨_, _, _, rfl⟩

theorem Turns.due {l' : Loop σ} (hturns : Turns h l es (.next l')) (hresumed : l'.resumed = false) :
    es = [] ∨ ∃ es' before after result, es = es' ++ [.ticked before after result] := by
  rcases List.eq_nil_or_concat es with rfl | ⟨es, e, rfl⟩
  · exact Or.inl rfl
  · rw [List.concat_eq_append] at hturns ⊢
    obtain ⟨_, _, _, -, -, hturned⟩ := hturns.last
    obtain ⟨before, after, result, rfl⟩ := hturned.due hresumed
    exact Or.inr ⟨es, before, after, result, rfl⟩

/-- Before the last event of a turn the hook may have been asked, and that is all. -/
theorem Turned.earlier (hturned : Turned h l es e t) :
    es = [] ∨ (l.computer.isRunning = true ∧ l.resumed = false ∧
      ∃ answer, es = [.asked l.computer answer]) := by
  cases hturned with
  | finish hrun hbefore hr => exact Or.inl rfl
  | «break» hrun hresumed hask hr => exact Or.inr ⟨hrun, hresumed, true, rfl⟩
  | tick hrun hclear | dry hrun hclear | fail hrun hclear =>
      cases hclear with
      | resumed hresumed => exact Or.inl rfl
      | asked hresumed hask => exact Or.inr ⟨hrun, hresumed, false, rfl⟩

end Loop

/-! ### The first events of a run -/

namespace Computer

open Loop

variable {h : Hook σ} {c : Computer} {s : σ} {es : List Event} {e : Event}

/-- `c.Happens h s es`: the run of `c` under the hook begins with the events `es`. -/
def Happens (h : Hook σ) (c : Computer) (s : σ) (es : List Event) : Prop :=
  ∃ rest t, Turns h (Loop.start c s) (es ++ rest) t

theorem happens_of_turns {t : Turn σ} (hturns : Turns h (Loop.start c s) es t) :
    c.Happens h s es :=
  ⟨[], t, by rwa [List.append_nil]⟩

/-- The newest event is the last one of its turn, or it is a question in the midst of one. -/
theorem happens_snoc (hhap : c.Happens h s (es ++ [e])) :
    (∃ t, Turns h (Loop.start c s) (es ++ [e]) t) ∨
      ∃ l answer, Turns h (Loop.start c s) es (.next l) ∧ l.computer.isRunning = true ∧
        l.resumed = false ∧ e = .asked l.computer answer := by
  obtain ⟨rest, t, hturns⟩ := hhap
  generalize hwhole : es ++ [e] ++ rest = whole at hturns
  induction hturns generalizing rest with
  | start => simp at hwhole
  | @snoc es₁ es₂ l t before last ih =>
      rcases List.append_eq_append_iff.mp hwhole with ⟨more, rfl, -⟩ | ⟨begun, hes, rfl⟩
      · exact ih more rfl
      · -- `begun` is what has been seen of the last turn, so the newest event is its last.
        obtain ⟨us, e', t', hturn, hturned⟩ := exists_turned h l
        rw [hturn] at last
        obtain ⟨hus, rfl⟩ := Prod.mk.inj last
        rcases List.eq_nil_or_concat begun with rfl | ⟨begun, e'', rfl⟩
        · rw [hes, List.append_nil]
          exact Or.inl ⟨_, before⟩
        · rw [List.concat_eq_append, ← List.append_assoc] at hes
          obtain ⟨rfl, he⟩ := List.append_inj' hes rfl
          cases he
          rcases List.eq_nil_or_concat rest with rfl | ⟨rest, e'', rfl⟩
          · rw [List.append_nil, List.concat_eq_append] at hus
            refine Or.inl ⟨t', ?_⟩
            rw [List.append_assoc, ← hus]
            exact .snoc before hturn
          · simp only [List.concat_eq_append, ← List.append_assoc] at hus
            obtain ⟨rfl, -⟩ := List.append_inj' hus rfl
            rcases hturned.earlier with hnil | ⟨hrun, hresumed, answer, hone⟩
            · simp at hnil
            · obtain ⟨rfl, rfl, rfl⟩ : begun = [] ∧ e = .asked l.computer answer ∧ rest = [] := by
                cases begun <;> simp_all
              rw [List.append_nil]
              exact Or.inr ⟨l, answer, before, hrun, hresumed, rfl⟩

/-- Every event but a question is the last one of its turn. -/
theorem turned_of_happens (hhap : c.Happens h s (es ++ [e]))
    (hask : ∀ c' answer, e ≠ .asked c' answer) :
    ∃ es₁ l es₂ t, Turns h (Loop.start c s) (es ++ [e]) t ∧
      Turns h (Loop.start c s) es₁ (.next l) ∧ es = es₁ ++ es₂ ∧ Turned h l es₂ e t := by
  rcases happens_snoc hhap with ⟨t, hturns⟩ | ⟨l, answer, -, -, -, he⟩
  · obtain ⟨es₁, l, es₂, hbefore, hes, hturned⟩ := hturns.last
    exact ⟨es₁, l, es₂, t, hturns, hbefore, hes, hturned⟩
  · exact absurd he (hask _ _)

/-- A turn that leads to another one is followed by an event. -/
theorem happens_next {l : Loop σ} (hturns : Turns h (Loop.start c s) es (.next l)) :
    ∃ e, c.Happens h s (es ++ [e]) := by
  obtain ⟨us, e, t, hturn, -⟩ := exists_turned h l
  have hmore := hturns.snoc hturn
  cases us with
  | nil => exact ⟨e, happens_of_turns hmore⟩
  | cons e' us => exact ⟨e', us ++ [e], t, by simpa using hmore⟩

/-- An event that follows another one than a question begins a turn. -/
theorem turns_of_happens_next {e' : Event} (hhap : c.Happens h s (es ++ [e] ++ [e']))
    (hask : ∀ c' answer, e ≠ .asked c' answer) :
    ∃ l t, Turns h (Loop.start c s) (es ++ [e]) (.next l) ∧
      ((∃ answer, l.computer.isRunning = true ∧ l.resumed = false ∧
        e' = .asked l.computer answer) ∨ Turned h l [] e' t) := by
  rcases happens_snoc hhap with ⟨t, hturns⟩ | ⟨l, answer, hturns, hrun, hresumed, he⟩
  · obtain ⟨es₁, l, us, hbefore, hes, hturned⟩ := hturns.last
    rcases hturned.earlier with rfl | ⟨-, -, answer, rfl⟩
    · rw [List.append_nil] at hes
      subst hes
      exact ⟨l, t, hbefore, Or.inr hturned⟩
    · obtain ⟨-, he⟩ := List.append_inj' hes rfl
      cases he
      exact absurd rfl (hask _ _)
  · exact ⟨l, .next l, hturns, Or.inl ⟨answer, hrun, hresumed, he⟩⟩

end Computer

/-! ### The protocol -/

namespace Hook

open Computer

/-- What holds in the run of `c` under the hook, whatever the hook does. -/
structure Protocol (h : Hook σ) (c : Computer) (s : σ) : Prop where
  /-- The hook is asked about the computer as it is, and that is one that runs. -/
  asked : ∀ es c' answer, c.Happens h s (es ++ [.asked c' answer]) →
    c' = (Loop.start c s).computer.after es ∧ c'.isRunning = true
  /-- An instruction is attempted only by a machine that is on and inside its program, so
  that none is refused for not running. -/
  attempted : ∀ es before after result, c.Happens h s (es ++ [.ticked before after result]) →
    before = (Loop.start c s).computer.after es ∧ before.cpu.halted = false ∧
      Cpu.Inside before.program before.cpu ∧ result ≠ .error .halted
  /-- What follows an attempt that finds the inbox empty is a stop at the end. -/
  dried : ∀ es before after,
    c.Happens h s (es ++ [.ticked before after (.error .inboxEmpty)]) →
      (∃ e, c.Happens h s (es ++ [.ticked before after (.error .inboxEmpty)] ++ [e])) ∧
      ∀ e, c.Happens h s (es ++ [.ticked before after (.error .inboxEmpty)] ++ [e]) →
        ∃ after' answer notes, e = .stopped .finished after after' answer notes
  /-- A break is called for by the hook, immediately before and on the same computer, and
  that is one whose machine is on and inside its program. -/
  interrupted : ∀ es before after answer notes,
    c.Happens h s (es ++ [.stopped .break before after answer notes]) →
      before.cpu.halted = false ∧ Cpu.Inside before.program before.cpu ∧
        ∃ es', es = es' ++ [.asked before true]
  /-- At a stop at the end the machine has just been halted, and it had no current step, or
  one outside its program, or was halted before. -/
  finished : ∀ es before after answer notes,
    c.Happens h s (es ++ [.stopped .finished before after answer notes]) →
      ∃ last, last = (Loop.start c s).computer.after es ∧ before = last.setHalted true ∧
        (last.cpu.pc = none ∨ (∃ pc, last.cpu.pc = some pc ∧ last.program.size ≤ pc) ∨
          last.cpu.halted = true)
  /-- A hook that lets the run go on is not asked again before an instruction is attempted. -/
  unasked : ∀ es why before after notes es' c' answer,
    c.Happens h s
      (es ++ .stopped why before after (.ok .continue) notes :: es' ++ [.asked c' answer]) →
      ∃ before after result, .ticked before after result ∈ es'
  /-- The run goes on after a stop exactly if the hook wants it to and, at the end, has
  cleared the flag. -/
  goes_on : ∀ es why before after answer notes,
    c.Happens h s (es ++ [.stopped why before after answer notes]) →
      ((∃ e, c.Happens h s (es ++ [.stopped why before after answer notes] ++ [e])) ↔
        answer = .ok .continue ∧ (why = .finished → after.cpu.halted = false))
  /-- The failures that are returned are those of the hook, as they are, and those of an
  instruction, as they are, of which an empty inbox is none. -/
  failed : ∀ e, (∃ o, c.Returns h s o ∧ o.result = .error e) ↔ ∃ es,
    (∃ why before after notes,
      c.Happens h s (es ++ [.stopped why before after (.error e) notes])) ∨
    (e ≠ .inboxEmpty ∧ ∃ before after, c.Happens h s (es ++ [.ticked before after (.error e)]))
  /-- What is returned has no current step. -/
  returned : ∀ o, c.Returns h s o → o.computer.cpu.pc = none

section

variable {h : Hook σ} {c : Computer} {s : σ}

/-- The computer at the last event of a turn is the one that the events before it left. -/
theorem computer_of_turned {es₁ es₂ : List Event} {l : Loop σ} {e : Event} {t : Turn σ}
    (hturns : Loop.Turns h (Loop.start c s) es₁ (.next l)) (hturned : Loop.Turned h l es₂ e t) :
    l.computer = (Loop.start c s).computer.after (es₁ ++ es₂) := by
  rcases hturned.earlier with rfl | ⟨-, -, answer, rfl⟩
  · rw [List.append_nil, ← hturns.computer_eq]
    rfl
  · rw [Computer.after_append_singleton]
    rfl

theorem asked_of_happens {es : List Event} {c' : Computer} {answer : Bool}
    (hhap : c.Happens h s (es ++ [.asked c' answer])) :
    c' = (Loop.start c s).computer.after es ∧ c'.isRunning = true ∧
      (es = [] ∨ ∃ es' before after result, es = es' ++ [.ticked before after result]) := by
  rcases happens_snoc hhap with ⟨t, hturns⟩ | ⟨l, answer, hturns, hrun, hresumed, he⟩
  · obtain ⟨_, _, _, -, -, hturned⟩ := hturns.last
    cases hturned
  · cases he
    exact ⟨hturns.computer_eq, hrun, hturns.due hresumed⟩

theorem attempted_of_happens {es : List Event} {before after : Computer}
    {result : Except Cpu.Error Unit}
    (hhap : c.Happens h s (es ++ [.ticked before after result])) :
    before = (Loop.start c s).computer.after es ∧ before.cpu.halted = false ∧
      Cpu.Inside before.program before.cpu ∧ result ≠ .error .halted := by
  obtain ⟨es₁, l, es₂, t, -, hturns, rfl, hturned⟩ := turned_of_happens hhap (by simp)
  have hcomputer := computer_of_turned hturns hturned
  cases hturned with
  | tick hrun hclear htick =>
      obtain ⟨hon, hin⟩ := isRunning_iff.mp hrun
      exact ⟨hcomputer, hon, hin, by simp⟩
  | dry hrun hclear htick =>
      obtain ⟨hon, hin⟩ := isRunning_iff.mp hrun
      exact ⟨hcomputer, hon, hin, by simp⟩
  | fail hrun hclear htick he =>
      obtain ⟨hon, hin⟩ := isRunning_iff.mp hrun
      refine ⟨hcomputer, hon, hin, ?_⟩
      rintro ⟨⟩
      exact Cpu.tick_ne_halted hrun htick rfl

theorem dried_of_happens {es : List Event} {before after : Computer}
    (hhap : c.Happens h s (es ++ [.ticked before after (.error .inboxEmpty)])) :
    (∃ e, c.Happens h s (es ++ [.ticked before after (.error .inboxEmpty)] ++ [e])) ∧
      ∀ e, c.Happens h s (es ++ [.ticked before after (.error .inboxEmpty)] ++ [e]) →
        ∃ after' answer notes, e = .stopped .finished after after' answer notes := by
  obtain ⟨es₁, l, es₂, t, hwhole, -, -, hturned⟩ := turned_of_happens hhap (by simp)
  cases hturned with
  | fail hrun hclear htick he => exact absurd rfl he
  | dry hrun hclear htick =>
      refine ⟨happens_next hwhole, ?_⟩
      intro e hnext
      obtain ⟨l', t', hturns, hfirst⟩ := turns_of_happens_next hnext (by simp)
      have hcomputer : l'.computer = l.computer.setHalted true := by
        have hleft := hturns.computer_eq
        rw [Computer.after_append_singleton] at hleft
        exact hleft
      have hoff : l'.computer.isRunning = false := by
        rw [hcomputer]
        exact not_running_of_halted rfl
      rcases hfirst with ⟨answer, hrun', -, -⟩ | hturned'
      · rw [hoff] at hrun'
        cases hrun'
      · cases hturned' with
        | finish hrun' hbefore hr =>
            have hstill : l'.computer.setHalted true = l.computer.setHalted true := by
              rw [hcomputer]
              rfl
            rw [hbefore, hstill]
            exact ⟨_, _, _, rfl⟩
        | tick hrun' | dry hrun' | fail hrun' =>
            rw [hoff] at hrun'
            cases hrun'

theorem interrupted_of_happens {es : List Event} {before after : Computer}
    {answer : Except Cpu.Error Resume} {notes : List Log.Record}
    (hhap : c.Happens h s (es ++ [.stopped .break before after answer notes])) :
    before.cpu.halted = false ∧ Cpu.Inside before.program before.cpu ∧
      ∃ es', es = es' ++ [.asked before true] := by
  obtain ⟨es₁, l, es₂, t, -, -, rfl, hturned⟩ := turned_of_happens hhap (by simp)
  cases hturned with
  | «break» hrun hresumed hask hr =>
      obtain ⟨hon, hin⟩ := isRunning_iff.mp hrun
      exact ⟨hon, hin, es₁, rfl⟩

theorem finished_of_happens {es : List Event} {before after : Computer}
    {answer : Except Cpu.Error Resume} {notes : List Log.Record}
    (hhap : c.Happens h s (es ++ [.stopped .finished before after answer notes])) :
    ∃ last, last = (Loop.start c s).computer.after es ∧ before = last.setHalted true ∧
      (last.cpu.pc = none ∨ (∃ pc, last.cpu.pc = some pc ∧ last.program.size ≤ pc) ∨
        last.cpu.halted = true) := by
  obtain ⟨es₁, l, es₂, t, -, hturns, rfl, hturned⟩ := turned_of_happens hhap (by simp)
  have hcomputer := computer_of_turned hturns hturned
  cases hturned with
  | finish hrun hbefore hr =>
      refine ⟨l.computer, hcomputer, hbefore, ?_⟩
      cases hhalted : l.computer.cpu.halted with
      | true => exact Or.inr (Or.inr rfl)
      | false =>
          cases hpc : l.computer.cpu.pc with
          | none => exact Or.inl rfl
          | some pc =>
              refine Or.inr (Or.inl ⟨pc, rfl, ?_⟩)
              rw [← Nat.not_lt]
              intro hlt
              have hrunning := isRunning_iff.mpr ⟨hhalted, pc, hpc, hlt⟩
              rw [hrunning] at hrun
              cases hrun

theorem unasked_of_happens {es es' : List Event} {why : Stop} {before after c' : Computer}
    {given : Except Cpu.Error Resume} {notes : List Log.Record} {answer : Bool}
    (hhap : c.Happens h s
      (es ++ .stopped why before after given notes :: es' ++ [.asked c' answer])) :
    ∃ before after result, .ticked before after result ∈ es' := by
  obtain ⟨-, -, hnil | ⟨es'', b, a, result, hes⟩⟩ := asked_of_happens hhap
  · simp at hnil
  · rcases List.eq_nil_or_concat es' with rfl | ⟨es', e, rfl⟩
    · obtain ⟨-, he⟩ := List.append_inj' hes rfl
      cases he
    · rw [List.concat_eq_append, ← List.cons_append, ← List.append_assoc] at hes
      obtain ⟨-, he⟩ := List.append_inj' hes rfl
      cases he
      exact ⟨b, a, result, by simp⟩

/-- A stop, and what the loop makes of the hook's reaction. -/
theorem reaction_of_happens {es : List Event} {why : Stop} {before after : Computer}
    {answer : Except Cpu.Error Resume} {notes : List Log.Record}
    (hhap : c.Happens h s (es ++ [.stopped why before after answer notes])) :
    ∃ state, Loop.Turns h (Loop.start c s) (es ++ [.stopped why before after answer notes])
      (Reaction.turn ⟨answer, after, state, notes⟩ why) := by
  obtain ⟨_, _, _, t, hwhole, -, -, hturned⟩ := turned_of_happens hhap (by simp)
  cases hturned with
  | @finish _ r hrun hbefore hr => exact ⟨r.state, hwhole⟩
  | @«break» _ r hrun hresumed hask hr => exact ⟨r.state, hwhole⟩

theorem goes_on_of_happens {es : List Event} {why : Stop} {before after : Computer}
    {answer : Except Cpu.Error Resume} {notes : List Log.Record}
    (hhap : c.Happens h s (es ++ [.stopped why before after answer notes])) :
    (∃ e, c.Happens h s (es ++ [.stopped why before after answer notes] ++ [e])) ↔
      answer = .ok .continue ∧ (why = .finished → after.cpu.halted = false) := by
  constructor
  · rintro ⟨e, hnext⟩
    obtain ⟨l, -, hturns, -⟩ := turns_of_happens_next hnext (by simp)
    obtain ⟨_, _, _, -, -, hturned⟩ := hturns.last
    generalize ht : Turn.next l = t at hturned
    cases hturned with
    | finish | «break» =>
        obtain ⟨hanswer, hhalted, -⟩ := Reaction.turn_eq_next.mp ht.symm
        exact ⟨hanswer, hhalted⟩
  · rintro ⟨hanswer, hhalted⟩
    obtain ⟨state, hturns⟩ := reaction_of_happens hhap
    rw [Reaction.turn_eq_next.mpr ⟨hanswer, hhalted, rfl⟩] at hturns
    exact happens_next hturns

theorem returns_of_happens {es : List Event} {e : Cpu.Error}
    (hhap : (∃ why before after notes,
        c.Happens h s (es ++ [.stopped why before after (.error e) notes])) ∨
      (e ≠ .inboxEmpty ∧ ∃ before after,
        c.Happens h s (es ++ [.ticked before after (.error e)]))) :
    ∃ o, c.Returns h s o ∧ o.result = .error e := by
  rcases hhap with ⟨why, before, after, notes, hhap⟩ | ⟨he, before, after, hhap⟩
  · obtain ⟨state, hturns⟩ := reaction_of_happens hhap
    exact ⟨_, returns_iff.mpr ⟨_, _, hturns, rfl⟩, rfl⟩
  · obtain ⟨_, _, _, t, hwhole, -, -, hturned⟩ := turned_of_happens hhap (by simp)
    cases hturned with
    | dry => exact absurd rfl he
    | fail hrun hclear htick he' => exact ⟨_, returns_iff.mpr ⟨_, _, hwhole, rfl⟩, rfl⟩

theorem happens_of_returns {o : Outcome σ} {e : Cpu.Error} (hrun : c.Returns h s o)
    (he : o.result = .error e) : ∃ es,
    (∃ why before after notes,
      c.Happens h s (es ++ [.stopped why before after (.error e) notes])) ∨
    (e ≠ .inboxEmpty ∧ ∃ before after,
      c.Happens h s (es ++ [.ticked before after (.error e)])) := by
  obtain ⟨es, o', hturns, rfl⟩ := returns_iff.mp hrun
  have hresult : o'.result = .error e := he
  rcases List.eq_nil_or_concat es with rfl | ⟨es, last, rfl⟩
  · cases hturns.nil_eq
  · rw [List.concat_eq_append] at hturns
    have hhap := happens_of_turns hturns
    obtain ⟨_, _, _, -, -, hturned⟩ := hturns.last
    refine ⟨es, ?_⟩
    generalize ht : Turn.over o' = t at hturned
    cases hturned with
    | finish | «break» =>
        rw [(Reaction.turn_eq_over ht.symm).2 e] at hresult
        rw [hresult] at hhap
        exact Or.inl ⟨_, _, _, _, hhap⟩
    | tick => cases ht
    | dry => cases ht
    | fail hrun hclear htick hne =>
        cases ht
        cases hresult
        exact Or.inr ⟨hne, _, _, hhap⟩

end

/-- **A run keeps the protocol with every hook.** -/
theorem run_keeps_protocol (h : Hook σ) (c : Computer) (s : σ) : h.Protocol c s where
  asked es c' answer hhap := by
    obtain ⟨hcomputer, hrun, -⟩ := asked_of_happens hhap
    exact ⟨hcomputer, hrun⟩
  attempted es before after result hhap := attempted_of_happens hhap
  dried es before after hhap := dried_of_happens hhap
  interrupted es before after answer notes hhap := interrupted_of_happens hhap
  finished es before after answer notes hhap := finished_of_happens hhap
  unasked es why before after notes es' c' answer hhap := unasked_of_happens hhap
  goes_on es why before after answer notes hhap := goes_on_of_happens hhap
  failed e := by
    constructor
    · rintro ⟨o, hrun, he⟩
      exact happens_of_returns hrun he
    · rintro ⟨es, hhap⟩
      exact returns_of_happens hhap
  returned o hrun := by
    obtain ⟨_, o', -, rfl⟩ := returns_iff.mp hrun
    rfl

/--
Loses the current step at every break, and at the end sends the run back to its beginning,
until it has had enough and fails.
-/
def saboteur : Hook Nat where
  shouldStop _ s := (true, s)
  onStop why c s := match why, s with
    | .break, _ => { answer := .ok .continue, computer := c.setPc (some 99), state := s }
    | .finished, 0 => { answer := .error .accumulatorEmpty, computer := c, state := s }
    | .finished, s + 1 =>
      { answer := .ok .continue, computer := (c.setPc (some 0)).setHalted false, state := s }

/-- A program that takes a value from an empty inbox. -/
def idle : Computer where
  program := #[.moveFromInbox]

/-- Under the saboteur the inbox is found empty only in the third turn, and then the run ends
with the failure of the hook. -/
theorem saboteur_dried_then_failed : ∃ es before after,
    idle.Happens saboteur 1 (es ++ [.ticked before after (.error .inboxEmpty)]) ∧
    (∃ e, idle.Happens saboteur 1 (es ++ [.ticked before after (.error .inboxEmpty)] ++ [e])) ∧
    ∃ o, idle.Returns saboteur 1 o ∧ o.result = .error .accumulatorEmpty ∧
      o.computer.cpu.pc = none := by
  have hprotocol := run_keeps_protocol saboteur idle 1
  have hlost : Loop.Turns saboteur (Loop.start idle 1) _ (.next ⟨_, 1, true⟩) :=
    Loop.Turns.single rfl
  have hback : Loop.Turns saboteur (Loop.start idle 1) _ (.next ⟨_, 0, true⟩) := hlost.snoc rfl
  have hdry : Loop.Turns saboteur (Loop.start idle 1)
      (_ ++ [.ticked _ _ (.error .inboxEmpty)]) (.next _) := hback.snoc rfl
  have hhap := happens_of_turns hdry
  have hrun : ∃ o, idle.runWith saboteur 4 1 = some o ∧ o.result = .error .accumulatorEmpty :=
    ⟨_, rfl, rfl⟩
  obtain ⟨o, hrun, hresult⟩ := hrun
  exact ⟨_, _, _, hhap, (hprotocol.dried _ _ _ hhap).1, o, ⟨4, hrun⟩, hresult,
    hprotocol.returned o ⟨4, hrun⟩⟩

end Hook

end Mailroom
