/-
Colours say what a line of a listing is.

A line is coloured when it is nothing but text any more, so what it is has to be found in its
characters.  That works because all names are words.  The line of a label starts with a word and
ends in a colon; the line of a step starts with two spaces, and so no word, whatever its letters,
is ever looked at.  What is written for a stop starts like the name of a label could, but it does
not end in a colon.

Colouring adds escape sequences and changes nothing else: when they are removed, what is left is
what is left of the line itself, for any line at all (`unpainted_colorize`).  A line that holds no
escape character comes back unchanged, and lines of listings hold none.
-/
import Mailroom.Debugger.Session
import Mailroom.Terminal.Color
import Mailroom.Proofs.Listing

namespace Mailroom

namespace Terminal

variable {line : String} {style : Option Style} {cs : List Char}

/-! ### Removing escape sequences -/

/-- What is left of a text without its escape sequences, each of which goes from an escape character
to the next `m`; the text may start inside of one. -/
def visible : Bool → List Char → List Char
  | _, [] => []
  | true, c :: cs => visible (c != 'm') cs
  | false, c :: cs => if c = '\x1b' then visible true cs else c :: visible false cs

/-- The text without its escape sequences. -/
def unpainted (text : String) : String :=
  String.ofList (visible false text.toList)

theorem visible_eq_self (h : '\x1b' ∉ cs) : visible false cs = cs := by
  induction cs with
  | nil => rfl
  | cons c cs ih =>
      rw [List.mem_cons, not_or] at h
      rw [visible, if_neg (Ne.symm h.1), ih h.2]

theorem visible_opening (s : Style) (cs : List Char) :
    visible false (s.opening ++ cs) = visible false cs := by
  cases s <;> rfl

/-- The sequence that switches off ends any sequence that it stands in. -/
theorem visible_closing (inside : Bool) (cs : List Char) :
    visible inside (closing ++ cs) = visible false cs := by
  cases inside <;> rfl

theorem visible_append_closing (inside : Bool) (cs : List Char) :
    visible inside (cs ++ closing) = visible inside cs := by
  induction cs generalizing inside with
  | nil => cases inside <;> rfl
  | cons c cs ih =>
      cases inside with
      | true => exact ih (c != 'm')
      | false =>
          rw [List.cons_append, visible, visible, ih true, ih false]

/-- Switching on again is not seen either. -/
theorem visible_reopen (s : Style) (inside : Bool) (cs : List Char) :
    visible inside (reopen s.opening cs) = visible inside cs := by
  induction cs using reopen.induct generalizing inside with
  | case1 => rfl
  | case2 rest ih =>
      rw [reopen, List.append_assoc, visible_closing, visible_opening, ih]
      exact (visible_closing inside rest).symm
  | case3 c rest hreset ih =>
      rw [reopen]
      · cases inside with
        | true => exact ih (c != 'm')
        | false => rw [visible, visible, ih true, ih false]
      · exact hreset

/-- **Colouring adds nothing but escape sequences**, whatever the line holds. -/
theorem unpainted_colorize (line : String) : unpainted (colorize line) = unpainted line := by
  unfold colorize
  split
  · next s hs =>
    rw [unpainted, Style.paint, String.toList_ofList, visible_append_closing, visible_opening,
      visible_reopen]
    rfl
  · rfl

/-! ### Styles -/

/-- The line between what switches its style on and what switches it off. -/
def dressed : Option Style → String → String
  | some s, line => String.ofList (s.opening ++ line.toList ++ closing)
  | none, line => line

/-- No text starts in the way of two styles. -/
theorem opening_append_inj {s s' : Style} {cs' : List Char}
    (h : s.opening ++ cs = s'.opening ++ cs') : s = s' := by
  have hfree : ∀ s s' : Style, s.opening <+: s'.opening → s = s' := by
    intro s s'
    cases s <;> cases s' <;> decide
  have hprefix : s.opening <+: s'.opening ++ cs' := by
    rw [← h]
    exact List.prefix_append _ _
  rcases List.prefix_or_prefix_of_prefix hprefix (List.prefix_append _ _) with hle | hle
  · exact hfree s s' hle
  · exact (hfree s' s hle).symm

/-- The style can be told from the text. -/
theorem dressed_inj {style' : Option Style} (h : dressed style line = dressed style' line) :
    style = style' := by
  have hne : ∀ s : Style, dressed (some s) line ≠ line := by
    intro s heq
    have hlength := congrArg (fun text : String => text.toList.length) heq
    simp only [dressed, String.toList_ofList, List.length_append] at hlength
    have hclosing : 0 < closing.length := by decide
    omega
  cases style with
  | none =>
      cases style' with
      | none => rfl
      | some s => exact absurd h.symm (hne s)
  | some s =>
      cases style' with
      | none => exact absurd h (hne s)
      | some s' =>
          have hchars := String.ofList_injective h
          rw [List.append_assoc, List.append_assoc] at hchars
          exact congrArg some (opening_append_inj hchars)

theorem reopen_eq_self (opening : List Char) (h : '\x1b' ∉ cs) : reopen opening cs = cs := by
  induction cs with
  | nil => rfl
  | cons c cs ih =>
      rw [List.mem_cons, not_or] at h
      rw [reopen, ih h.2]
      intro rest hc
      exact absurd hc.symm h.1

/-- The line is shown in this style and in no other, and its text can be had back. -/
structure Painted (line : String) (style : Option Style) : Prop where
  shown : colorize line = dressed style line
  sole : ∀ other, colorize line = dressed other line → other = style
  text : unpainted (colorize line) = line

theorem painted_of_styleOf (hescape : '\x1b' ∉ line.toList) (hstyle : styleOf line.toList = style) :
    Painted line style := by
  have hshown : colorize line = dressed style line := by
    rw [colorize, hstyle]
    cases style with
    | none => rfl
    | some s =>
        show s.paint line = _
        rw [Style.paint, reopen_eq_self _ hescape, dressed]
  refine ⟨hshown, ?_, ?_⟩
  · intro other hother
    exact dressed_inj (hother.symm.trans hshown)
  · rw [unpainted_colorize, unpainted, visible_eq_self hescape, String.ofList_toList]

/-! ### Lines of a listing -/

theorem styleOf_label {name : String} (h : Text.IsWord name.toList) :
    styleOf (ListingLine.label name).text.toList = some .greenBold := by
  have htext : (ListingLine.label name).text.toList = name.toList ++ [':'] := String.toList_append
  have hhead : ((name.toList ++ [':']).head? != some ' ') = true := by
    rw [bne_iff_ne]
    intro hspace
    cases h.head_not_blank [':'] ' ' hspace
  have hlast : ((name.toList ++ [':']).getLast? == some ':') = true := by
    rw [List.getLast?_concat]
    rfl
  rw [htext]
  unfold styleOf
  exact if_pos (by rw [hhead, hlast]; rfl)

/-- The marks of a step decide, and the current step goes before the breakpoint. -/
theorem styleOf_step (breakpoint current : Bool) (number : Nat) (i : Instruction) :
    styleOf (ListingLine.step breakpoint current number i).text.toList
      = if current then some .yellowBold else if breakpoint then some .red else none := by
  cases breakpoint <;> cases current <;> simp [ListingLine.text, styleOf, List.isPrefixOf]

theorem escape_not_mem_text {l : ListingLine} (h : l.statement.Legible) :
    '\x1b' ∉ l.text.toList := by
  cases l with
  | label name => exact (Assembly.tidy_text h).not_mem (by decide) (by decide)
  | step breakpoint current number i =>
      have hnumber : '\x1b' ∉ (Numeral.ofStep number).toList :=
        (Numeral.isWord_ofStep number).not_mem (by decide)
      have hinstruction : '\x1b' ∉ i.text.toList :=
        (Assembly.tidy_text (s := .instruction i) h).not_mem (by decide) (by decide)
      cases breakpoint <;> cases current <;> simp [ListingLine.text, hnumber, hinstruction]

/-! ### Lines about a stop -/

/-- A line that looks like no line of a listing is told by its first words. -/
theorem styleOf_message (hhead : cs.head? ≠ some ' ') (hlast : cs.getLast? ≠ some ':') :
    styleOf cs = if "Stopped".toList.isPrefixOf cs || "Program finished".toList.isPrefixOf cs
      then some .cyan else none := by
  have hcolon : (cs.getLast? == some ':') = false := beq_eq_false_iff_ne.mpr hlast
  unfold styleOf
  rw [hcolon, Bool.and_false]
  split
  · next h => cases h
  · split
    · exact absurd rfl hhead
    · exact absurd rfl hhead
    · rfl

/-- A line that ends in a word does not end in a colon. -/
theorem getLast?_ne_colon (front : List Char) {w : List Char} (h : Text.IsWord w) :
    (front ++ w).getLast? ≠ some ':' := by
  rw [List.getLast?_append_of_ne_nil _ h.nonempty]
  intro hcolon
  exact h.not_mem (c := ':') (by decide) (List.mem_of_getLast? hcolon)

theorem styleOf_stopped (step : Nat) :
    styleOf ("Stopped at step " ++ Numeral.ofStep step).toList = some .cyan := by
  have hword := Numeral.isWord_ofStep step
  rw [String.toList_append, styleOf_message (by simp) (getLast?_ne_colon _ hword)]
  rfl

theorem styleOf_finished (steps : Nat) :
    styleOf ("Program finished after " ++ Numeral.ofNat steps ++ " steps").toList
      = some .cyan := by
  have hchars : "steps".toList.all Text.isWordChar = true := by decide
  have hword : Text.IsWord "steps".toList := ⟨by simp, List.all_eq_true.mp hchars⟩
  have hlast := getLast?_ne_colon
    ("Program finished after ".toList ++ (Numeral.ofNat steps).toList ++ [' ']) hword
  have hend : " steps".toList = [' '] ++ "steps".toList := rfl
  rw [String.toList_append, String.toList_append, hend, ← List.append_assoc,
    styleOf_message (by simp) hlast]
  rfl

/-- The line that says why the run stopped. -/
def stopLine (c : Computer) : Stop → String
  | .break => "Stopped at step " ++ Numeral.ofStep (c.cpu.pc.getD 0)
  | .finished => "Program finished after " ++ Numeral.ofNat c.cpu.steps ++ " steps"

theorem painted_stopLine (c : Computer) (why : Stop) : Painted (stopLine c why) (some .cyan) := by
  cases why with
  | «break» =>
      have hstep : '\x1b' ∉ (Numeral.ofStep (c.cpu.pc.getD 0)).toList :=
        (Numeral.isWord_ofStep _).not_mem (by decide)
      show Painted ("Stopped at step " ++ Numeral.ofStep (c.cpu.pc.getD 0)) _
      exact painted_of_styleOf (by simp [hstep]) (styleOf_stopped _)
  | finished =>
      have hsteps : '\x1b' ∉ (Numeral.ofNat c.cpu.steps).toList :=
        (Numeral.isWord_ofNat _).not_mem (by decide)
      show Painted ("Program finished after " ++ Numeral.ofNat c.cpu.steps ++ " steps") _
      exact painted_of_styleOf (by simp [hsteps]) (styleOf_finished _)

/-- It is the first line that is written for a stop. -/
theorem stopLines_eq_cons (s : Debugger.Session) (c : Computer) (why : Stop) :
    ∃ rest, s.stopLines c why = stopLine c why :: rest := by
  cases why with
  | «break» => exact ⟨_, rfl⟩
  | finished => exact ⟨_, rfl⟩

end Terminal

/-! ### Listings in colour -/

open Terminal (Painted Style)

/-- The style that a line should have: labels green, the current step yellow, and the other steps
red if they have a breakpoint. -/
def ListingLine.style (pc : Option Nat) (breakpoints : Std.ExtTreeSet Nat) :
    ListingLine → Option Style
  | label _ => some .greenBold
  | step _ _ number _ =>
    if pc = some number then some .yellowBold
    else if number ∈ breakpoints then some .red
    else none

namespace Computer

variable {c : Computer} {breakpoints : Std.ExtTreeSet Nat} {start stop : Nat} {line : ListingLine}

/-- A line of a listing belongs to a label of the jump table or to a step of the program. -/
theorem mem_listing (h : line ∈ c.listing start stop breakpoints) :
    (∃ name step, (name, step) ∈ c.jumps.entries ∧ line = .label name) ∨
    ∃ number i, c.program[number]? = some i ∧
      line = .step (breakpoints.contains number) (c.cpu.pc == some number) number i := by
  have hlabels : ∀ step, line ∈ c.labelLines step →
      ∃ name step, (name, step) ∈ c.jumps.entries ∧ line = .label name := by
    intro step hline
    obtain ⟨name, hname, rfl⟩ := List.mem_map.mp hline
    exact ⟨name, step, JumpTable.mem_labelsAt.mp hname, rfl⟩
  rcases List.mem_append.mp h with h | h
  · obtain ⟨number, -, hline⟩ := List.mem_flatMap.mp h
    unfold stepLines at hline
    split at hline
    · next i hi =>
      rcases List.mem_append.mp hline with hline | hline
      · exact .inl (hlabels number hline)
      · exact .inr ⟨number, i, hi, List.mem_singleton.mp hline⟩
    · cases hline
  · split at h
    · exact .inl (hlabels _ h)
    · cases h

/-- The lines of a sound program have their colours, whatever its labels are called. -/
theorem painted_listing (hsound : Assembly.Sound c.program c.jumps)
    (h : line ∈ c.listing start stop breakpoints) :
    Painted line.text (line.style c.cpu.pc breakpoints) := by
  rcases mem_listing h with ⟨name, step, hentry, rfl⟩ | ⟨number, i, hi, rfl⟩
  · have hword : Text.IsWord name.toList := hsound.words _ hentry
    exact Terminal.painted_of_styleOf (Terminal.escape_not_mem_text hword)
      (Terminal.styleOf_label hword)
  · have hlegible : i.Legible := hsound.legible i (Array.mem_of_getElem? hi)
    refine Terminal.painted_of_styleOf (Terminal.escape_not_mem_text hlegible) ?_
    rw [Terminal.styleOf_step]
    simp only [ListingLine.style, beq_iff_eq, Std.ExtTreeSet.contains_iff_mem]

end Computer

/--
**Colours mark the lines of a listing correctly and keep their text.**

The program and the jump table may come from any text, so labels and operands may be called
anything that a name can be, `Stopped` included.  The line that is written for a stop is cyan.  No
line at all gets anything but escape sequences from being coloured.
-/
theorem listing_colored {source : String} {a : Assembly} (h : assemble source = .ok a)
    (c : Computer) (pc : Option Nat) (breakpoints : Std.ExtTreeSet Nat) (start stop : Nat) :
    (∀ line ∈ ((c.load a).setPc pc).listing start stop breakpoints,
      Painted line.text (line.style pc breakpoints)) ∧
    (∀ (s : Debugger.Session) (d : Computer) (why : Stop),
      (∃ rest, s.stopLines d why = Terminal.stopLine d why :: rest) ∧
        Painted (Terminal.stopLine d why) (some .cyan)) ∧
    ∀ line, Terminal.unpainted (Terminal.colorize line) = Terminal.unpainted line := by
  refine ⟨?_, ?_, Terminal.unpainted_colorize⟩
  · intro line hline
    have hsound : Assembly.Sound ((c.load a).setPc pc).program ((c.load a).setPc pc).jumps :=
      Assembly.sound_of_assemble h
    exact Computer.painted_listing hsound hline
  · intro s d why
    exact ⟨Terminal.stopLines_eq_cons s d why, Terminal.painted_stopLine d why⟩

/-- Labels and an operand that are called like the lines about a stop. -/
def disguised : String :=
  "Stopped:\njump_to Stopped\nProgram:\nadd [finished]"

theorem disguised_colored :
    ∃ a, assemble disguised = .ok a ∧
      Painted (ListingLine.label "Stopped").text (some .greenBold) ∧
      Painted (ListingLine.step true false 0 (.jump .always (.label "Stopped"))).text
        (some .red) ∧
      Painted (ListingLine.step true true 1 (.onTile .add ⟨.label "finished", true⟩)).text
        (some .yellowBold) := by
  have hassemble : assemble disguised = .ok
      { program := #[.jump .always (.label "Stopped"), .onTile .add ⟨.label "finished", true⟩]
        jumps := ⟨[("Stopped", 0), ("Program", 1)]⟩ } := by
    decide +kernel
  obtain ⟨hlines, -, -⟩ := listing_colored hassemble {} (some 1) {0, 1} 0 9
  exact ⟨_, hassemble, hlines (.label "Stopped") (by decide +kernel),
    hlines (.step true false 0 _) (by decide +kernel),
    hlines (.step true true 1 _) (by decide +kernel)⟩

end Mailroom
