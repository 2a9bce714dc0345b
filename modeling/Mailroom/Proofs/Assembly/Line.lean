/-
The forms of a line.

The reader takes a line apart from left to right and decides by what comes next.  Here
each form is given as a whole, and the reader recognizes exactly the lines of the form.
Both directions are needed: printed lines must be recognized, and what is recognized
must be known to consist of words.
-/
import Mailroom.Assembly.Line
import Mailroom.Proofs.Text.Word

namespace Mailroom

namespace Assembly

open Text (IsWord Broken isWordChar isGap)

/-- An argument as it stands on the line. -/
def Argument.chars (a : Argument) : List Char :=
  if a.indirect then '[' :: a.text.toList ++ [']'] else a.text.toList

/-- A gap is one or more spaces and tabs. -/
structure IsGap (cs : List Char) : Prop where
  nonempty : cs ≠ []
  gaps : ∀ c ∈ cs, isGap c = true

theorem isWordChar_of_isGap {c : Char} (h : isGap c = true) : isWordChar c = false := by
  simp only [isGap, Bool.or_eq_true, beq_iff_eq] at h
  rcases h with rfl | rfl <;> decide

namespace Line

/-- An argument does not start with a gap. -/
theorem dropWhile_gap_chars {a : Argument} (h : IsWord a.text.toList) :
    a.chars.dropWhile isGap = a.chars := by
  unfold Argument.chars
  split
  · rfl
  · cases htext : a.text.toList with
    | nil => exact absurd htext h.nonempty
    | cons c cs =>
        have hc : isWordChar c = true := h.chars c (by rw [htext]; exact List.mem_cons_self)
        have hno : ¬ isGap c = true := by
          intro hgap
          rw [isWordChar_of_isGap hgap] at hc
          cases hc
        rw [List.dropWhile_cons_of_neg hno]

theorem argument?_eq_some {cs : List Char} {a : Argument} :
    argument? cs = some a ↔ IsWord a.text.toList ∧ cs = a.chars := by
  constructor
  · intro h
    unfold argument? at h
    split at h
    · split at h
      · next hword =>
        cases h
        obtain ⟨hw, rfl, -⟩ := Text.word?_eq_some.mp hword
        exact ⟨hw, rfl⟩
      · cases h
    · split at h
      · next hword =>
        cases h
        obtain ⟨hw, rfl, -⟩ := Text.word?_eq_some.mp hword
        exact ⟨hw, by simp [Argument.chars]⟩
      · cases h
  · rintro ⟨hw, rfl⟩
    obtain ⟨text, indirect⟩ := a
    cases indirect with
    | true =>
        have hword : Text.word? (text.toList ++ [']']) = some (text, [']']) :=
          Text.word?_eq_some.mpr ⟨hw, rfl, Text.broken_cons (by decide)⟩
        simp [Argument.chars, argument?, hword]
    | false =>
        have hword : Text.word? text.toList = some (text, []) :=
          Text.word?_eq_some.mpr ⟨hw, (List.append_nil _).symm, Text.broken_nil⟩
        simp only [Argument.chars, Bool.false_eq_true, if_false]
        unfold argument?
        split
        · next hbracket =>
          -- A bracket is no character of a word.
          have hchar := hw.chars '[' (by rw [hbracket]; exact List.mem_cons_self)
          cases hchar
        · simp [hword]

/-! ### Whole lines -/

theorem read?_eq_label {cs : List Char} {name : String} :
    read? cs = some (.label name) ↔ IsWord name.toList ∧ cs = name.toList ++ [':'] := by
  constructor
  · intro h
    unfold read? at h
    split at h
    · cases h
    · cases h
    · next hword =>
      cases h
      obtain ⟨hw, rfl, -⟩ := Text.word?_eq_some.mp hword
      exact ⟨hw, rfl⟩
    · split at h
      · simp only [Option.map_eq_some_iff] at h
        obtain ⟨_, -, h⟩ := h
        cases h
      · cases h
  · rintro ⟨hw, rfl⟩
    have hword : Text.word? (name.toList ++ [':']) = some (name, [':']) :=
      Text.word?_eq_some.mpr ⟨hw, rfl, Text.broken_cons (by decide)⟩
    simp [read?, hword]

theorem read?_eq_symbol {cs : List Char} {symbol : String} :
    read? cs = some (.command symbol none) ↔ IsWord symbol.toList ∧ cs = symbol.toList := by
  constructor
  · intro h
    unfold read? at h
    split at h
    · cases h
    · next hword =>
      cases h
      obtain ⟨hw, rfl, -⟩ := Text.word?_eq_some.mp hword
      exact ⟨hw, List.append_nil _⟩
    · cases h
    · split at h
      · simp only [Option.map_eq_some_iff] at h
        obtain ⟨_, -, h⟩ := h
        cases h
      · cases h
  · rintro ⟨hw, rfl⟩
    have hword : Text.word? symbol.toList = some (symbol, []) :=
      Text.word?_eq_some.mpr ⟨hw, (List.append_nil _).symm, Text.broken_nil⟩
    simp [read?, hword]

theorem read?_eq_command {cs : List Char} {symbol : String} {a : Argument} :
    read? cs = some (.command symbol (some a)) ↔ IsWord symbol.toList ∧ IsWord a.text.toList ∧
      ∃ gap, IsGap gap ∧ cs = symbol.toList ++ (gap ++ a.chars) := by
  constructor
  · intro h
    unfold read? at h
    split at h
    · cases h
    · cases h
    · cases h
    · next w c rest hno hword =>
      split at h
      · next hc =>
        simp only [Option.map_eq_some_iff] at h
        obtain ⟨a', ha, h⟩ := h
        cases h
        obtain ⟨hw, rfl, -⟩ := Text.word?_eq_some.mp hword
        obtain ⟨ha, hchars⟩ := argument?_eq_some.mp ha
        refine ⟨hw, ha, c :: rest.takeWhile isGap, ⟨by simp, ?_⟩, ?_⟩
        · exact List.forall_mem_cons.mpr ⟨hc, List.all_eq_true.mp List.all_takeWhile⟩
        · rw [← hchars, List.cons_append, List.takeWhile_append_dropWhile]
      · cases h
  · rintro ⟨hw, ha, gap, ⟨hne, hgaps⟩, rfl⟩
    cases gap with
    | nil => exact absurd rfl hne
    | cons c gap =>
        obtain ⟨hc, hgap⟩ := List.forall_mem_cons.mp hgaps
        have hword : Text.word? (symbol.toList ++ (c :: gap ++ a.chars))
            = some (symbol, c :: (gap ++ a.chars)) :=
          Text.word?_eq_some.mpr ⟨hw, rfl, Text.broken_cons (isWordChar_of_isGap hc)⟩
        have hdrop : (gap ++ a.chars).dropWhile isGap = a.chars := by
          rw [List.dropWhile_append_of_pos hgap, dropWhile_gap_chars ha]
        have hcolon : c ≠ ':' := by
          rintro rfl
          cases hc
        unfold read?
        rw [hword]
        simp [hc, hdrop, hcolon, argument?_eq_some.mpr ⟨ha, rfl⟩]

end Line

end Assembly

end Mailroom
