/-
How a run uses up its script.

A menu reads the script line by line, and a run goes on after a stop only if some line told it
to.  So a run has read a part of its script from the beginning (`Console.Reads`), and every
stop has used up a line, except perhaps the last one (`spent_of_turns`).
-/
import Mailroom.Proofs.Computer.Turn
import Mailroom.Proofs.Debugger.Session

namespace Mailroom

/-! ### Stops -/

def Event.isStop : Event → Bool
  | .stopped .. => true
  | .asked .. | .ticked .. => false

/-- The number of stops among some events. -/
def stops (es : List Event) : Nat :=
  es.countP Event.isStop

theorem stops_append (es es' : List Event) : stops (es ++ es') = stops es + stops es' :=
  List.countP_append

/-- The state of the hook after a turn. -/
def Turn.state {σ : Type} : Turn σ → σ
  | .next l => l.state
  | .over o => o.state

theorem Reaction.turn_state {σ : Type} (r : Reaction σ) (why : Stop) :
    (r.turn why).state = r.state := by
  obtain ⟨answer, computer, state, notes⟩ := r
  cases answer with
  | error e => rfl
  | ok resume =>
      cases resume with
      | quit => rfl
      | «continue» =>
          simp only [Reaction.turn]
          split <;> rfl

namespace Debugger

open Loop (Turns Turned)

/-! ### Lines that are read -/

/-- The entries of some lines that are shown. -/
def shown (lines : List String) : Array Entry :=
  (lines.map Entry.wrote).toArray

/-- The line that was read, if one was. -/
def Entry.line? : Entry → Option String
  | .read line => line
  | .wrote _ => none

/-- Between the two consoles these lines have been read, and no others. -/
structure Console.Reads (k : Console) (lines : List String) (k' : Console) : Prop where
  script : k.script = lines ++ k'.script
  transcript : ∃ entries : Array Entry, k'.transcript = k.transcript ++ entries ∧
    entries.toList.filterMap Entry.line? = lines

namespace Console

variable {k k₁ k₂ : Console} {lines lines₁ lines₂ : List String}

theorem Reads.refl (k : Console) : k.Reads [] k where
  script := rfl
  transcript := ⟨#[], by simp, rfl⟩

theorem Reads.trans (h₁ : k.Reads lines₁ k₁) (h₂ : k₁.Reads lines₂ k₂) :
    k.Reads (lines₁ ++ lines₂) k₂ := by
  obtain ⟨entries₁, htranscript₁, rfl⟩ := h₁.transcript
  obtain ⟨entries₂, htranscript₂, rfl⟩ := h₂.transcript
  refine ⟨?_, entries₁ ++ entries₂, ?_, ?_⟩
  · rw [h₁.script, h₂.script, List.append_assoc]
  · rw [htranscript₂, htranscript₁, Array.append_assoc]
  · rw [Array.toList_append, List.filterMap_append]

theorem reads_write (k : Console) (lines : List String) : k.Reads [] (k.write lines) where
  script := rfl
  transcript := by
    refine ⟨shown lines, rfl, ?_⟩
    simp [shown, Function.comp_def, Entry.line?]

theorem reads_read {s : Session} {line : String} {rest : List String}
    (h : s.console.script = line :: rest) :
    s.console.Reads [line] (s.read (some line) rest).console where
  script := h
  transcript := ⟨#[.read (some line)], rfl, rfl⟩

theorem reads_closed {s : Session} (h : s.console.script = []) :
    s.console.Reads [] (s.read none []).console where
  script := h
  transcript := ⟨#[.read none], rfl, rfl⟩

end Console

open Console

/-- A menu reads lines, and at least one if the run is to go on. -/
theorem reads_menu : ∀ (lines : List String) (c : Computer) (s : Session)
    (notes : List Log.Record), s.console.script = lines →
    ∃ ls, s.console.Reads ls (Session.menu c s notes lines).state.console ∧
      ((Session.menu c s notes lines).answer = .ok .continue → ls ≠ []) := by
  intro lines
  induction lines with
  | nil =>
      intro c s notes hscript
      refine ⟨[], reads_closed hscript, ?_⟩
      intro hanswer
      cases hanswer
  | cons line rest ih =>
      intro c s notes hscript
      have hconsole := Session.respond_console (s.read (some line) rest) c line
      generalize hr : (s.read (some line) rest).respond c line = r at hconsole
      have hreads : s.console.Reads [line] (r.session.write r.lines).console := by
        have hread := reads_read hscript
        rw [← hconsole] at hread
        exact hread.trans (reads_write _ r.lines)
      cases hresume : r.resume with
      | some resume =>
          simp only [Session.menu, hr, hresume]
          exact ⟨[line], hreads, fun _ => List.cons_ne_nil _ _⟩
      | none =>
          have hrest : (r.session.write r.lines).console.script = rest := by
            have hscript' := hreads.script
            rw [hscript] at hscript'
            exact (List.cons.inj hscript').2.symm
          obtain ⟨ls, hmenu, -⟩ := ih r.computer _ (notes ++ r.notes) hrest
          simp only [Session.menu, hr, hresume]
          exact ⟨line :: ls, hreads.trans hmenu, fun _ => List.cons_ne_nil _ _⟩

theorem reads_onStop (why : Stop) (c : Computer) (s : Session) :
    ∃ ls, s.console.Reads ls (Session.onStop why c s).state.console ∧
      ((Session.onStop why c s).answer = .ok .continue → ls ≠ []) := by
  obtain ⟨ls, hreads, hne⟩ := reads_menu s.console.script c (s.opening why c)
    (Session.stopNotes c why) (s.opening_script why c)
  have hopening : s.console.Reads [] (s.opening why c).console := reads_write _ _
  exact ⟨ls, hopening.trans hreads, hne⟩

/-! ### Stops use up lines -/

/--
What has been read since the console was `k`: stops use up lines, at least one each as long as
the run goes on.
-/
def Spent (k : Console) (es : List Event) (t : Turn Session) : Prop :=
  ∃ lines, k.Reads lines t.state.console ∧ stops es ≤ lines.length + 1 ∧
    ∀ l, t = .next l → stops es ≤ lines.length

theorem Spent.refl (l : Loop Session) : Spent l.state.console [] (.next l) :=
  ⟨[], .refl _, Nat.zero_le _, fun _ _ => Nat.zero_le _⟩

theorem Spent.trans {k : Console} {es es' : List Event} {l : Loop Session} {t : Turn Session}
    (h : Spent k es (.next l)) (h' : Spent l.state.console es' t) : Spent k (es ++ es') t := by
  obtain ⟨lines, hreads, -, hle⟩ := h
  obtain ⟨lines', hreads', hle', hnext⟩ := h'
  have hlines : stops es ≤ lines.length := hle l rfl
  refine ⟨lines ++ lines', hreads.trans hreads', ?_, ?_⟩
  · rw [stops_append, List.length_append]
    omega
  · intro l' hl'
    have hlines' := hnext l' hl'
    rw [stops_append, List.length_append]
    omega

theorem spent_stop {s : Session} {why : Stop} {c : Computer} {r : Reaction Session}
    {es : List Event} (hr : r = Session.onStop why c s) (hes : stops es = 1) :
    Spent s.console es (r.turn why) := by
  subst hr
  obtain ⟨lines, hreads, hne⟩ := reads_onStop why c s
  refine ⟨lines, ?_, ?_, ?_⟩
  · rw [Reaction.turn_state]
    exact hreads
  · omega
  · intro l hl
    have hpos : 0 < lines.length :=
      List.length_pos_iff.mpr (hne (Reaction.turn_eq_next.mp hl).1)
    omega

/-- The session is asked whether to stop and does not change. -/
theorem spent_cleared {l : Loop Session} {es : List Event} {s : Session} {e : Event}
    {t : Turn Session} (hclear : Loop.Cleared Session.hook l es s) (he : stops [e] = 0)
    (ht : t.state = s) : Spent l.state.console (es ++ [e]) t := by
  have hnone : stops es = 0 ∧ s = l.state := by
    cases hclear with
    | resumed _ => exact ⟨rfl, rfl⟩
    | asked _ hask => exact ⟨rfl, (congrArg Prod.snd hask).symm⟩
  obtain ⟨hes, rfl⟩ := hnone
  have hstops : stops (es ++ [e]) = 0 := by
    rw [stops_append, hes, he]
  refine ⟨[], ht ▸ .refl _, ?_, ?_⟩
  · omega
  · intro _ _
    omega

theorem spent_of_turned {l : Loop Session} {es : List Event} {e : Event} {t : Turn Session}
    (h : Turned Session.hook l es e t) : Spent l.state.console (es ++ [e]) t := by
  cases h with
  | finish _ _ hr => exact spent_stop hr rfl
  | @«break» s r _ _ hask hr =>
      have hs : l.state = s := congrArg Prod.snd hask
      rw [← hs] at hr
      exact spent_stop hr rfl
  | tick _ hclear _ => exact spent_cleared hclear rfl rfl
  | dry _ hclear _ => exact spent_cleared hclear rfl rfl
  | fail _ hclear _ _ => exact spent_cleared hclear rfl rfl

theorem spent_of_turns {l : Loop Session} {es : List Event} {t : Turn Session}
    (h : Turns Session.hook l es t) : Spent l.state.console es t := by
  induction h with
  | start => exact .refl l
  | @snoc es es' l₁ t _ last ih =>
      obtain ⟨es₂, e, t', hturn, hturned⟩ := Loop.exists_turned Session.hook l₁
      rw [hturn] at last
      cases last
      exact ih.trans (spent_of_turned hturned)

end Debugger

end Mailroom
