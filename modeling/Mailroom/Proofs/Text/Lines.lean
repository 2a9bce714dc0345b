/-
Cutting a text into lines undoes joining them.

A line that is joined must not be empty, for a text that ends in a line feed has no
further line, and two texts of which one ends in an empty line would be the same.

Texts that end in a line feed can be put in front of other texts, and their lines come
before those of the others.
-/
import Mailroom.Text

namespace Mailroom

namespace Text

variable {α : Type} [DecidableEq α] {feed : α}

theorem lines_of_not_mem {line : List α} (hfeed : feed ∉ line) (hne : line ≠ []) :
    lines feed line = [line] := by
  induction line with
  | nil => exact absurd rfl hne
  | cons c line ih =>
      rw [List.mem_cons, not_or] at hfeed
      obtain ⟨hc, hline⟩ := hfeed
      rw [lines, if_neg (Ne.symm hc)]
      cases line with
      | nil => rfl
      | cons d line => rw [ih hline (by simp)]

/-- The line before the first line feed comes first. -/
theorem lines_append_feed {line : List α} (hfeed : feed ∉ line) (rest : List α) :
    lines feed (line ++ feed :: rest) = line :: lines feed rest := by
  induction line with
  | nil => rw [List.nil_append, lines, if_pos rfl]
  | cons c line ih =>
      rw [List.mem_cons, not_or] at hfeed
      obtain ⟨hc, hline⟩ := hfeed
      rw [List.cons_append, lines, if_neg (Ne.symm hc), ih hline]

theorem lines_ne_nil {cs : List α} (h : cs ≠ []) : lines feed cs ≠ [] := by
  cases cs with
  | nil => exact absurd rfl h
  | cons c rest =>
      simp only [lines]
      split
      · simp
      · split <;> simp

/-- Behind a line feed a new line begins, whatever stands before it. -/
theorem lines_append (before rest : List α) :
    lines feed (before ++ feed :: rest) = lines feed (before ++ [feed]) ++ lines feed rest := by
  induction before with
  | nil => simp only [List.nil_append, lines, if_true, List.singleton_append]
  | cons c before ih =>
      simp only [List.cons_append, lines, ih]
      split
      · rfl
      · cases hlines : lines feed (before ++ [feed]) with
        | nil => exact absurd hlines (lines_ne_nil (by simp))
        | cons line others => rfl

/-- The text is empty or ends in a line feed, so that what follows it begins a line. -/
def Whole (feed : α) (cs : List α) : Prop :=
  cs = [] ∨ ∃ before, cs = before ++ [feed]

/-- A text of whole lines has its lines in front of those of the other. -/
theorem lines_whole_append {front : List α} (h : Whole feed front) (rest : List α) :
    lines feed (front ++ rest) = lines feed front ++ lines feed rest := by
  rcases h with rfl | ⟨before, rfl⟩
  · rfl
  · rw [List.append_assoc, List.singleton_append, lines_append]

/-- Every text consists of whole lines and a rest of a line. -/
theorem exists_whole_append (feed : α) (cs : List α) :
    ∃ front line, cs = front ++ line ∧ Whole feed front ∧ feed ∉ line := by
  induction cs with
  | nil => exact ⟨[], [], rfl, .inl rfl, List.not_mem_nil⟩
  | cons c cs ih =>
      obtain ⟨front, line, rfl, rfl | ⟨before, rfl⟩, hline⟩ := ih
      · by_cases hc : c = feed
        · subst hc
          exact ⟨[c], line, rfl, .inr ⟨[], rfl⟩, hline⟩
        · refine ⟨[], c :: line, rfl, .inl rfl, ?_⟩
          rw [List.mem_cons, not_or]
          exact ⟨Ne.symm hc, hline⟩
      · exact ⟨c :: (before ++ [feed]), line, rfl, .inr ⟨c :: before, rfl⟩, hline⟩

/-- **Lines that are joined are read back as they are.** -/
theorem lines_intercalate {ls : List (List α)} (hfeed : ∀ l ∈ ls, feed ∉ l)
    (hne : ∀ l ∈ ls, l ≠ []) : lines feed ([feed].intercalate ls) = ls := by
  induction ls with
  | nil => rfl
  | cons l ls ih =>
      obtain ⟨hl, hls⟩ := List.forall_mem_cons.mp hfeed
      obtain ⟨hl', hls'⟩ := List.forall_mem_cons.mp hne
      cases ls with
      | nil =>
          rw [List.intercalate_singleton]
          exact lines_of_not_mem hl hl'
      | cons k ls =>
          rw [List.intercalate_cons_cons, List.append_assoc, List.singleton_append,
            lines_append_feed hl, ih hls hls']

end Text

end Mailroom
