/-
Words and the blanks around them.

Printing and reading meet in words: a printed word is read back as far as it goes,
provided that what follows it is no character of a word.  `word?_eq_some` says so in
both directions.

A word is never trimmed, because no blank is a character of a word.  Above ASCII the two
classes are given by unrelated tables, so this is a matter of checking each blank.
-/
import Mathlib.Data.List.TakeWhile
import Mailroom.Text.Word

namespace Mailroom

namespace Text

/-- At least one character, and nothing but characters of words. -/
structure IsWord (cs : List Char) : Prop where
  nonempty : cs ≠ []
  chars : ∀ c ∈ cs, isWordChar c = true

theorem IsWord.not_mem {cs : List Char} (h : IsWord cs) {c : Char} (hc : isWordChar c = false) :
    c ∉ cs := by
  intro hmem
  rw [h.chars c hmem] at hc
  cases hc

/-- Nothing of a word is at the beginning. -/
def Broken (cs : List Char) : Prop :=
  ∀ c ∈ cs.head?, isWordChar c = false

theorem broken_nil : Broken [] := by
  simp [Broken]

theorem broken_cons {c : Char} {cs : List Char} (h : isWordChar c = false) :
    Broken (c :: cs) := by
  simpa [Broken] using h

theorem takeWhile_broken {cs : List Char} (h : Broken cs) : cs.takeWhile isWordChar = [] := by
  cases cs with
  | nil => rfl
  | cons c cs => simp [h c rfl]

theorem dropWhile_broken {cs : List Char} (h : Broken cs) : cs.dropWhile isWordChar = cs := by
  cases cs with
  | nil => rfl
  | cons c cs => simp [h c rfl]

/-- Words are read as far as they go. -/
theorem word?_eq_some {cs rest : List Char} {w : String} :
    word? cs = some (w, rest) ↔ IsWord w.toList ∧ cs = w.toList ++ rest ∧ Broken rest := by
  constructor
  · intro h
    have hsplit := cs.takeWhile_append_dropWhile (p := isWordChar)
    have hrest : Broken (cs.dropWhile isWordChar) := by
      intro c hc
      have hhead := List.head?_dropWhile_not isWordChar cs
      rw [hc] at hhead
      simpa using hhead
    have hchars : ∀ c ∈ cs.takeWhile isWordChar, isWordChar c = true :=
      List.all_eq_true.mp List.all_takeWhile
    unfold word? at h
    split at h
    · cases h
    · next hne =>
      cases h
      rw [String.toList_ofList]
      exact ⟨⟨hne, hchars⟩, hsplit.symm, hrest⟩
  · rintro ⟨⟨hne, hchars⟩, rfl, hrest⟩
    have htake : (w.toList ++ rest).takeWhile isWordChar = w.toList := by
      rw [List.takeWhile_append_of_pos hchars, takeWhile_broken hrest, List.append_nil]
    have hdrop : (w.toList ++ rest).dropWhile isWordChar = rest := by
      rw [List.dropWhile_append_of_pos hchars, dropWhile_broken hrest]
    unfold word?
    rw [htake, hdrop]
    split
    · next h => exact absurd h hne
    · rw [String.ofList_toList]

/-- Where a word ends can be seen, so a text starts with one word only. -/
theorem IsWord.append_inj {w w' rest rest' : List Char} (hw : IsWord w) (hw' : IsWord w')
    (hrest : Broken rest) (hrest' : Broken rest') (h : w ++ rest = w' ++ rest') :
    w = w' ∧ rest = rest' := by
  have hread : ∀ {w rest : List Char}, IsWord w → Broken rest →
      word? (w ++ rest) = some (String.ofList w, rest) := by
    intro w rest hw hrest
    rw [word?_eq_some, String.toList_ofList]
    exact ⟨hw, rfl, hrest⟩
  have heq := (hread hw hrest).symm.trans ((congrArg word? h).trans (hread hw' hrest'))
  obtain ⟨hword, hafter⟩ := Prod.mk.inj (Option.some.inj heq)
  exact ⟨String.ofList_injective hword, hafter⟩

/-- A word starts with a character of a word. -/
theorem IsWord.append_ne_cons {w rest rest' : List Char} {c : Char} (h : IsWord w)
    (hc : isWordChar c = false) : w ++ rest ≠ c :: rest' := by
  intro heq
  cases w with
  | nil => exact h.nonempty rfl
  | cons d w =>
      have hd := h.chars d List.mem_cons_self
      rw [(List.cons.inj heq).1, hc] at hd
      cases hd

/-! ### Blanks -/

/-- The code points of the blanks. -/
def blankCodes : List Nat :=
  [9, 10, 11, 12, 13, 0x20, 0x85, 0xA0, 0x1680, 0x2000, 0x2001, 0x2002, 0x2003, 0x2004, 0x2005,
   0x2006, 0x2007, 0x2008, 0x2009, 0x200A, 0x2028, 0x2029, 0x202F, 0x205F, 0x3000]

theorem mem_blankCodes {c : Char} (h : isBlank c = true) : c.toNat ∈ blankCodes := by
  simp only [isBlank, Bool.or_eq_true, Bool.and_eq_true, decide_eq_true_eq, beq_iff_eq] at h
  simp only [blankCodes, List.mem_cons, List.not_mem_nil, or_false]
  omega

theorem isWordChar_blankCodes :
    ∀ n ∈ blankCodes, isWordChar (Char.ofNat n) = false := by
  decide +kernel

/-- No blank is a character of a word. -/
theorem isBlank_of_isWordChar {c : Char} (h : isWordChar c = true) : isBlank c = false := by
  rw [Bool.eq_false_iff]
  intro hblank
  have hno := isWordChar_blankCodes c.toNat (mem_blankCodes hblank)
  rw [Char.ofNat_toNat, h] at hno
  cases hno

/-- What has no blank at either end is not trimmed. -/
theorem trim_eq_self {cs : List Char} (hhead : ∀ c ∈ cs.head?, isBlank c = false)
    (hlast : ∀ c ∈ cs.getLast?, isBlank c = false) : trim cs = cs := by
  have hkeep : ∀ l : List Char, (∀ c ∈ l.head?, isBlank c = false) →
      l.dropWhile isBlank = l := by
    intro l hl
    cases l with
    | nil => rfl
    | cons c l => simp [hl c rfl]
  unfold trim
  rw [hkeep cs hhead, hkeep cs.reverse (by simpa using hlast), List.reverse_reverse]

theorem head_dropWhile_isBlank (cs : List Char) :
    ∀ c ∈ (cs.dropWhile isBlank).head?, isBlank c = false := by
  intro c hc
  have hhead := List.head?_dropWhile_not isBlank cs
  rw [hc] at hhead
  simpa using hhead

theorem head_trim (cs : List Char) : ∀ c ∈ (trim cs).head?, isBlank c = false := by
  intro c hc
  refine head_dropWhile_isBlank cs c ?_
  have hpre : trim cs <+: cs.dropWhile isBlank := by
    rw [trim, ← List.reverse_suffix, List.reverse_reverse]
    exact List.dropWhile_suffix isBlank
  obtain ⟨rest, hrest⟩ := hpre
  rw [← hrest, List.head?_append, hc]
  rfl

theorem getLast_trim (cs : List Char) : ∀ c ∈ (trim cs).getLast?, isBlank c = false := by
  rw [trim, List.getLast?_reverse]
  exact head_dropWhile_isBlank _

theorem trim_trim (cs : List Char) : trim (trim cs) = trim cs :=
  trim_eq_self (head_trim cs) (getLast_trim cs)

/-- Only blanks are trimmed to nothing. -/
theorem trim_eq_nil {cs : List Char} : trim cs = [] ↔ ∀ c ∈ cs, isBlank c = true := by
  rw [trim, List.reverse_eq_nil_iff, List.dropWhile_eq_nil_iff]
  simp only [List.mem_reverse]
  constructor
  · intro hall c hc
    rw [← List.takeWhile_append_dropWhile (p := isBlank) (l := cs), List.mem_append] at hc
    rcases hc with hc | hc
    · exact List.mem_takeWhile_imp hc
    · exact hall c hc
  · intro hall c hc
    exact hall c ((List.dropWhile_suffix isBlank).mem hc)

/-- Blanks in front do not matter, -/
theorem trim_blank_append {w : List Char} (hw : ∀ c ∈ w, isBlank c = true) (cs : List Char) :
    trim (w ++ cs) = trim cs := by
  rw [trim, List.dropWhile_append_of_pos hw, trim]

/-- and neither do blanks behind. -/
theorem trim_append_blank (cs : List Char) {w : List Char} (hw : ∀ c ∈ w, isBlank c = true) :
    trim (cs ++ w) = trim cs := by
  by_cases hcs : ∀ c ∈ cs, isBlank c = true
  · rw [trim_blank_append hcs, trim_eq_nil.mpr hw, trim_eq_nil.mpr hcs]
  · have hne : ¬ (cs.dropWhile isBlank).isEmpty = true := by
      rw [List.isEmpty_iff, List.dropWhile_eq_nil_iff]
      exact hcs
    have hw' : ∀ c ∈ w.reverse, isBlank c = true := by
      intro c hc
      exact hw c (List.mem_reverse.mp hc)
    rw [trim, List.dropWhile_append, if_neg hne, List.reverse_append,
      List.dropWhile_append_of_pos hw', trim]

theorem IsWord.head_not_blank {cs : List Char} (h : IsWord cs) (rest : List Char) :
    ∀ c ∈ (cs ++ rest).head?, isBlank c = false := by
  intro c hc
  cases cs with
  | nil => exact absurd rfl h.nonempty
  | cons d cs =>
      cases hc
      exact isBlank_of_isWordChar (h.chars _ List.mem_cons_self)

theorem IsWord.last_not_blank {cs : List Char} (h : IsWord cs) (front : List Char) :
    ∀ c ∈ (front ++ cs).getLast?, isBlank c = false := by
  intro c hc
  rw [List.getLast?_append, List.getLast?_eq_some_getLast h.nonempty] at hc
  cases hc
  exact isBlank_of_isWordChar (h.chars _ (List.getLast_mem h.nonempty))

/-- A word is not trimmed, but what follows it is. -/
theorem IsWord.trim_append {cs : List Char} (h : IsWord cs) (rest : List Char) :
    trim (cs ++ rest) = cs ++ (rest.reverse.dropWhile isBlank).reverse := by
  have hhead : (cs ++ rest).dropWhile isBlank = cs ++ rest := by
    cases hcs : cs ++ rest with
    | nil => rfl
    | cons c tail =>
        have hc := h.head_not_blank rest c (by rw [hcs]; rfl)
        rw [List.dropWhile_cons_of_neg (by simp [hc])]
  have hlast : cs.reverse.dropWhile isBlank = cs.reverse := by
    cases hcs : cs.reverse with
    | nil => rfl
    | cons c tail =>
        have hc := h.last_not_blank [] c (by rw [List.nil_append, ← List.head?_reverse, hcs]; rfl)
        rw [List.dropWhile_cons_of_neg (by simp [hc])]
  rw [trim, hhead, List.reverse_append, List.dropWhile_append, hlast]
  split
  · next hempty =>
    rw [List.isEmpty_iff.mp hempty, List.reverse_reverse, List.reverse_nil, List.append_nil]
  · rw [List.reverse_append, List.reverse_reverse]

end Text

end Mailroom
