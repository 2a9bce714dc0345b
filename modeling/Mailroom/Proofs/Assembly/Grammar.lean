/-
The grammar of lines.

`Spells` lists the four forms of a line, each as a text put together from words and what stands
between them.  The reader accepts these texts, says for each what it spells, and accepts no other
(`read_iff_spells`).

The reader decides by the character after the first word and never goes back.  It misses nothing
by this: it reads what a reader with ordered choice reads, which is put together from small
readers, can leave an optional part out and tries one form after the other (`line_eq`).
-/
import Mailroom.Proofs.Assembly.Line

namespace Mailroom

namespace Assembly

open Text (IsWord isGap word?)

namespace Line

/-- The text has one of the forms of a line, and this is what it says. -/
inductive Spells : String → Line → Prop
  | label {w : String} (hw : IsWord w.toList) : Spells (w ++ ":") (.label w)
  | symbol {w : String} (hw : IsWord w.toList) : Spells w (.command w none)
  | direct {w gap a : String} (hw : IsWord w.toList) (hgap : IsGap gap.toList)
      (ha : IsWord a.toList) : Spells (w ++ gap ++ a) (.command w (some ⟨a, false⟩))
  | indirect {w gap a : String} (hw : IsWord w.toList) (hgap : IsGap gap.toList)
      (ha : IsWord a.toList) :
      Spells (w ++ gap ++ "[" ++ a ++ "]") (.command w (some ⟨a, true⟩))

theorem spells_of_read {s : String} {l : Line} (h : read? s.toList = some l) : Spells s l := by
  cases l with
  | label name =>
      obtain ⟨hw, hs⟩ := read?_eq_label.mp h
      obtain rfl : s = name ++ ":" := String.toList_injective (by simpa using hs)
      exact .label hw
  | command symbol argument =>
      cases argument with
      | none =>
          obtain ⟨hw, hs⟩ := read?_eq_symbol.mp h
          obtain rfl : s = symbol := String.toList_injective hs
          exact .symbol hw
      | some a =>
          obtain ⟨hw, ha, gap, hgap, hs⟩ := read?_eq_command.mp h
          obtain ⟨gap, rfl⟩ : ∃ g : String, g.toList = gap := ⟨String.ofList gap, by simp⟩
          obtain ⟨a, indirect⟩ := a
          cases indirect with
          | false =>
              obtain rfl : s = symbol ++ gap ++ a :=
                String.toList_injective (by simpa [Argument.chars] using hs)
              exact .direct hw hgap ha
          | true =>
              obtain rfl : s = symbol ++ gap ++ "[" ++ a ++ "]" :=
                String.toList_injective (by simpa [Argument.chars] using hs)
              exact .indirect hw hgap ha

theorem read_of_spells {s : String} {l : Line} (h : Spells s l) : read? s.toList = some l := by
  cases h with
  | label hw => exact read?_eq_label.mpr ⟨hw, by simp⟩
  | symbol hw => exact read?_eq_symbol.mpr ⟨hw, rfl⟩
  | direct hw hgap ha =>
      exact read?_eq_command.mpr ⟨hw, ha, _, hgap, by simp [Argument.chars]⟩
  | indirect hw hgap ha =>
      exact read?_eq_command.mpr ⟨hw, ha, _, hgap, by simp [Argument.chars]⟩

end Line

/-! ### A reader put together from parts -/

/-- Reads the beginning of a text and answers what it says, with the rest of the text. -/
abbrev Reader (α : Type) := List Char → Option (α × List Char)

namespace Reader

variable {α β γ : Type}

def map (f : α → β) (p : Reader α) : Reader β :=
  fun cs => (p cs).map fun read => (f read.1, read.2)

/-- Ordered choice: the second is for what the first does not read. -/
def orElse (p q : Reader α) : Reader α :=
  fun cs => (p cs).or (q cs)

/-- What is not there may be left out. -/
def opt (p : Reader α) : Reader (Option α) :=
  orElse (map some p) fun cs => some (none, cs)

def pair (p : Reader α) (q : Reader β) : Reader (α × β) :=
  fun cs => (p cs).bind fun read => map (read.1, ·) q read.2

def preceded (p : Reader α) (q : Reader β) : Reader β :=
  map Prod.snd (pair p q)

def terminated (p : Reader α) (q : Reader β) : Reader α :=
  map Prod.fst (pair p q)

def delimited (p : Reader α) (q : Reader β) (r : Reader γ) : Reader β :=
  preceded p (terminated q r)

/-- Nothing may be left over. -/
def complete (p : Reader α) : Reader α :=
  fun cs => (p cs).filter fun read => read.2.isEmpty

def char (c : Char) : Reader Char
  | d :: rest => if d = c then some (c, rest) else none
  | [] => none

/-- As many spaces and tabs as there are, and at least one. -/
def gap : Reader Unit
  | c :: rest => if isGap c then some ((), rest.dropWhile isGap) else none
  | [] => none

def labelDecl : Reader String :=
  terminated word? (char ':')

def argument : Reader Argument :=
  orElse (map (⟨·, true⟩) (delimited (char '[') word? (char ']'))) (map (⟨·, false⟩) word?)

def instruction : Reader (String × Option Argument) :=
  pair word? (opt (preceded gap argument))

/-- A declaration if there is nothing else on the line, and else an instruction. -/
def line : Reader Line :=
  orElse (map .label (complete labelDecl))
    (map (fun read => .command read.1 read.2) (complete instruction))

/-! ### Reading to the end -/

variable {f : α → β} {p p' : Reader α} {q : Reader β} {cs : List Char}

theorem complete_map : complete (map f p) cs = map f (complete p) cs := by
  unfold complete map
  rw [Option.filter_map]
  rfl

theorem complete_orElse_left (h : p' cs = none) :
    complete (orElse p p') cs = complete p cs := by
  simp [complete, orElse, h]

theorem complete_orElse_right (h : p cs = none) :
    complete (orElse p p') cs = complete p' cs := by
  simp [complete, orElse, h]

theorem complete_pair :
    complete (pair p q) cs = (p cs).bind fun read => map (read.1, ·) (complete q) read.2 := by
  simp only [← complete_map]
  cases h : p cs <;> simp [complete, pair, h]

theorem complete_preceded :
    complete (preceded p q) cs = (p cs).bind fun read => complete q read.2 := by
  rw [preceded, complete_map, map, complete_pair]
  cases p cs <;> simp [map, Function.comp_def]

theorem complete_terminated : complete (terminated p q) cs
    = (p cs).bind fun read => map (fun _ => read.1) (complete q) read.2 := by
  rw [terminated, complete_map, map, complete_pair]
  cases p cs <;> simp [map, Function.comp_def]

/-- With something left to read, an optional part that is left out is missing. -/
theorem complete_opt (h : cs ≠ []) : complete (opt p) cs = map some (complete p) cs := by
  rw [← complete_map]
  cases hp : p cs <;> simp [complete, opt, orElse, map, hp, h]

theorem complete_char {c : Char} :
    complete (char c) cs = if cs = [c] then some (c, []) else none := by
  cases cs with
  | nil => rfl
  | cons d rest =>
      by_cases hd : d = c
      · cases rest <;> simp [complete, char, hd]
      · simp [complete, char, hd]

/-- An argument that takes up the whole text; a bracket is no character of a word. -/
theorem complete_argument (cs : List Char) :
    complete argument cs = (Line.argument? cs).map (·, []) := by
  unfold Line.argument?
  split
  · next cs =>
    have hdirect : map (⟨·, false⟩ : String → Argument) word? ('[' :: cs) = none := rfl
    rw [argument, complete_orElse_left hdirect, complete_map, map, delimited, complete_preceded]
    simp only [char, if_true, Option.bind_some, complete_terminated, complete_char, map]
    rcases word? cs with _ | ⟨w, rest⟩
    · rfl
    · by_cases hrest : rest = [']'] <;> simp [hrest]
  · next hbracket =>
    have hindirect : map (⟨·, true⟩ : String → Argument)
        (delimited (char '[') word? (char ']')) cs = none := by
      cases cs with
      | nil => rfl
      | cons c rest =>
          have hc : c ≠ '[' := by
            rintro rfl
            exact hbracket rest rfl
          simp [map, delimited, preceded, pair, char, hc]
    rw [argument, complete_orElse_right hindirect, complete_map, map]
    rcases h : word? cs with _ | ⟨w, _ | ⟨c, rest⟩⟩ <;> simp [complete, h]

theorem complete_labelDecl (cs : List Char) : complete labelDecl cs
    = (word? cs).bind fun read => if read.2 = [':'] then some (read.1, []) else none := by
  rw [labelDecl, complete_terminated]
  refine Option.bind_congr fun read _ => ?_
  rw [map, complete_char]
  split <;> rfl

/-- After the first word there is nothing, or a gap and an argument. -/
theorem complete_instruction (cs : List Char) : complete instruction cs
    = (word? cs).bind fun read => match read.2 with
      | [] => some ((read.1, none), [])
      | c :: rest =>
        if isGap c then
          (Line.argument? (rest.dropWhile isGap)).map fun a => ((read.1, some a), [])
        else none := by
  rw [instruction, complete_pair]
  refine Option.bind_congr fun read _ => ?_
  obtain ⟨w, rest⟩ := read
  cases rest with
  | nil => rfl
  | cons c rest =>
      have hopt := complete_opt (p := preceded gap argument) (List.cons_ne_nil c rest)
      rw [map, hopt, map, complete_preceded, gap]
      by_cases hc : isGap c = true
      · simp [hc, complete_argument, Function.comp_def]
      · simp [hc]

theorem read_of_cons {w : String} {c : Char} {rest : List Char}
    (hword : word? cs = some (w, c :: rest)) (hlabel : c :: rest ≠ [':']) :
    Line.read? cs = if isGap c then
      (Line.argument? (rest.dropWhile isGap)).map fun a => .command w (some a) else none := by
  unfold Line.read?
  rw [hword]
  split
  · next h => cases h
  · next h => cases h
  · next h =>
    cases h
    exact absurd rfl hlabel
  · next h =>
    cases h
    rfl

/-- To decide by the character after the first word is as good as ordered choice. -/
theorem line_eq (cs : List Char) : line cs = (Line.read? cs).map (·, []) := by
  rw [line, orElse, map, map, complete_labelDecl, complete_instruction]
  rcases hword : word? cs with _ | ⟨w, _ | ⟨c, rest⟩⟩
  · rw [Line.read?, hword]
    rfl
  · rw [Line.read?, hword]
    rfl
  · by_cases hlabel : c :: rest = [':']
    · rw [Line.read?, hword, hlabel]
      rfl
    · rw [read_of_cons hword hlabel]
      by_cases hc : isGap c = true
      · simp [hlabel, hc, Function.comp_def]
      · simp [hlabel, hc]

end Reader

/--
**The reader accepts exactly the grammar.**  It takes a text for a line if and only if the text
spells this line, and it accepts nothing if the text spells none.  To try one form after the other
makes no difference.
-/
theorem Line.read_iff_spells (s : String) :
    (∀ l, read? s.toList = some l ↔ Spells s l) ∧
    (read? s.toList = none ↔ ∀ l, ¬ Spells s l) ∧
    Reader.line s.toList = (read? s.toList).map (·, []) := by
  have hsome : ∀ l, read? s.toList = some l ↔ Spells s l :=
    fun l => ⟨spells_of_read, read_of_spells⟩
  refine ⟨hsome, ?_, Reader.line_eq s.toList⟩
  rw [Option.eq_none_iff_forall_ne_some]
  exact forall_congr' fun l => not_congr (hsome l)

example : Line.read? "copy_to \t [A]".toList = some (.command "copy_to" (some ⟨"A", true⟩)) ∧
    Line.read? "copy_to A B".toList = none ∧ Line.read? "START: add 3".toList = none :=
  ⟨rfl, rfl, rfl⟩

end Assembly

end Mailroom
