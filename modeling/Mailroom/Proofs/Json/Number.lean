/-
Which numbers of a document are integers.

A number is an integer if it is written as one: digits without superfluous zeros, perhaps behind a
minus sign, and no fraction and no exponent after them, even if these would change nothing.  Minus
zero is none.  `Literal` says this of the text.

Whether a number is too large is found out by rounding it, which is of no concern to integers that
fit 64 bits: rounding at most doubles them.
-/
import Mailroom.Json.Number
import Mailroom.Proofs.Numeral

namespace Mailroom.Json.Number

open Numeral (IsDigits unsignedBound)

variable {negative : Bool} {n : Int} {ds cs rest : List Char} {significand : Nat}

/-- No further part of a number follows. -/
def Ended (cs : List Char) : Prop :=
  ∀ c ∈ cs.head?, c.isDigit = false ∧ c ∉ ['.', 'e', 'E']

/-- The digits of an integer, behind a minus sign if it is negative. -/
structure Literal (negative : Bool) (n : Int) (ds : List Char) : Prop where
  digits : IsDigits ds
  /-- There are no superfluous zeros. -/
  short : ds.head? = some '0' → ds = ['0']
  value : n = if negative then -(Nat.ofDigitChars 10 ds 0 : Int) else Nat.ofDigitChars 10 ds 0
  /-- Minus zero is no integer. -/
  nonzero : negative = true → n ≠ 0

/-! ### Size -/

theorem le_ofDigitChars (ds : List Char) (start : Nat) : start ≤ Nat.ofDigitChars 10 ds start := by
  induction ds generalizing start with
  | nil => exact Nat.le_refl _
  | cons c ds ih =>
      rw [Nat.ofDigitChars_cons]
      have hle := ih (10 * start + (c.toNat - '0'.toNat))
      omega

/-- Digits that fit 64 bits are all collected. -/
theorem collect_eq (ds : List Char) (start : Nat)
    (h : Nat.ofDigitChars 10 ds start < unsignedBound) :
    collect start ds = (Nat.ofDigitChars 10 ds start, 0) := by
  induction ds generalizing start with
  | nil => rfl
  | cons c ds ih =>
      rw [Nat.ofDigitChars_cons] at h ⊢
      have hmore : start * 10 + digit c = 10 * start + (c.toNat - '0'.toNat) := by
        rw [digit, Nat.mul_comm]
      have hle := le_ofDigitChars ds (10 * start + (c.toNat - '0'.toNat))
      simp only [collect, hmore]
      rw [if_pos (by omega), ih _ h]

theorem round53_le (m : Nat) : round53 m ≤ 2 * m := by
  by_cases hm : m = 0
  · subst hm
    decide
  · have hunit : Nat.pow 2 (m.log2 + 1 - 53) ≤ m := by
      calc 2 ^ (m.log2 + 1 - 53) ≤ 2 ^ m.log2 := Nat.pow_le_pow_right (by decide) (by omega)
        _ ≤ m := Nat.log2_self_le hm
    have hquotient : m / Nat.pow 2 (m.log2 + 1 - 53) * Nat.pow 2 (m.log2 + 1 - 53) ≤ m :=
      Nat.div_mul_le_self _ _
    unfold round53
    simp only
    split
    · rw [Nat.add_mul, Nat.one_mul]
      omega
    · omega

theorem not_isTooLarge (h : significand < unsignedBound) : isTooLarge significand 0 = false := by
  have hround := round53_le significand
  have hbound : 2 * unsignedBound ≤ overflowBound := by decide +kernel
  have hone : round53 (Nat.pow 10 0) = 1 := by decide
  have hless : ¬ overflowBound ≤ round53 significand * round53 (Nat.pow 10 0) := by
    rw [hone]
    omega
  show (significand != 0 && (decide (308 < 0)
    || decide (overflowBound ≤ round53 significand * round53 (Nat.pow 10 0)))) = false
  rw [decide_eq_false hless]
  simp

/-! ### The parts of a number -/

theorem ofParts_ne_integer (digits fraction : List Char) (exponent : Int) :
    ofParts digits fraction exponent ≠ .integer n := by
  unfold ofParts
  simp only
  split
  · exact nofun
  · exact nofun

theorem finish_eq_integer {j : Json} : finish j cs = (.integer n, some rest) ↔
    j = .integer n ∧ cs = rest := by
  unfold finish
  split
  · simp
  · simp

theorem exponent_ne_integer (digits fraction : List Char) :
    exponent digits fraction cs ≠ (.integer n, some rest) := by
  unfold exponent
  simp only
  split
  · exact nofun
  · intro h
    exact ofParts_ne_integer _ _ _ (finish_eq_integer.mp h).1

theorem fraction_ne_integer (digits : List Char) :
    fraction digits cs ≠ (.integer n, some rest) := by
  unfold fraction
  split
  · exact nofun
  · split
    · exact exponent_ne_integer _ _
    · exact exponent_ne_integer _ _
    · intro h
      exact ofParts_ne_integer _ _ _ (finish_eq_integer.mp h).1

/-- The sign in front of the digits counts, except that zero has no sign. -/
theorem ofInteger_eq_integer (hfits : n.natAbs < unsignedBound) :
    ofInteger negative ds = .integer n ↔
      n = (if negative then -(Nat.ofDigitChars 10 ds 0 : Int) else Nat.ofDigitChars 10 ds 0) ∧
        (negative = true → n ≠ 0) := by
  have hsplit : ∀ value : Nat,
      (if negative then if value = 0 then Json.fractional else .integer (-(value : Int))
        else .integer value) = .integer n ↔
      n = (if negative then -(value : Int) else value) ∧ (negative = true → n ≠ 0) := by
    intro value
    cases negative with
    | false => simp [eq_comm]
    | true =>
        by_cases hzero : value = 0
        · simp [hzero]
        · simp only [hzero, if_true, if_false, Json.integer.injEq, forall_const]
          omega
  rw [← hsplit]
  unfold ofInteger
  simp only
  split
  · next htooLarge =>
    constructor
    · exact nofun
    · intro h
      have hvalue : Nat.ofDigitChars 10 ds 0 = n.natAbs := by
        rw [((hsplit _).mp h).1]
        cases negative <;> simp
      rw [collect_eq ds 0 (by omega)] at htooLarge
      have hsmall : isTooLarge (Nat.ofDigitChars 10 ds 0) 0 = false := not_isTooLarge (by omega)
      exact absurd htooLarge (Bool.eq_false_iff.mp hsmall)
  · rfl

theorem tail_eq_integer : tail negative ds cs = (.integer n, some rest) ↔
    ofInteger negative ds = .integer n ∧ cs = rest ∧ ∀ c ∈ cs.head?, c ∉ ['.', 'e', 'E'] := by
  unfold tail
  split
  · simp [fraction_ne_integer]
  · simp [exponent_ne_integer]
  · simp [exponent_ne_integer]
  · next hpoint hsmall hcapital =>
    rw [finish_eq_integer]
    refine and_congr_right fun _ => (and_iff_left_of_imp fun _ => ?_).symm
    intro c hc
    obtain ⟨after, hcs⟩ := List.head?_eq_some_iff.mp hc
    simp only [List.mem_cons, List.not_mem_nil, or_false, not_or]
    refine ⟨?_, ?_, ?_⟩
    · intro heq
      exact hpoint after (by rw [hcs, heq])
    · intro heq
      exact hsmall after (by rw [hcs, heq])
    · intro heq
      exact hcapital after (by rw [hcs, heq])

/-! ### The whole number -/

/-- What is read as digits is all of them. -/
theorem digits_cut (cs : List Char) : (∀ c ∈ cs.takeWhile Char.isDigit, c.isDigit = true) ∧
    cs = cs.takeWhile Char.isDigit ++ cs.dropWhile Char.isDigit ∧
    ∀ c ∈ (cs.dropWhile Char.isDigit).head?, c.isDigit = false := by
  refine ⟨List.all_eq_true.mp List.all_takeWhile, List.takeWhile_append_dropWhile.symm, ?_⟩
  intro c hc
  have hhead := List.head?_dropWhile_not Char.isDigit cs
  rw [hc] at hhead
  simpa using hhead

theorem digits_append (hds : ∀ c ∈ ds, c.isDigit = true)
    (hrest : ∀ c ∈ rest.head?, c.isDigit = false) :
    (ds ++ rest).takeWhile Char.isDigit = ds ∧ (ds ++ rest).dropWhile Char.isDigit = rest := by
  rw [List.takeWhile_append_of_pos hds, List.dropWhile_append_of_pos hds]
  cases rest with
  | nil => simp
  | cons c rest => simp [hrest c rfl]

/-- Digits that may start a number are read as far as they go. -/
theorem read_append (hds : IsDigits ds) (hshort : ds.head? = some '0' → ds = ['0'])
    (hrest : ∀ c ∈ rest.head?, c.isDigit = false) :
    read negative (ds ++ rest) = tail negative ds rest := by
  by_cases hzero : ds.head? = some '0'
  · rw [hshort hzero]
    cases rest with
    | nil => rfl
    | cons c rest =>
        have hc : c.isDigit = false := hrest c rfl
        simp only [List.cons_append, List.nil_append, read, hc, Bool.false_eq_true, if_false]
  · obtain ⟨htake, hdrop⟩ := digits_append hds.digits hrest
    cases ds with
    | nil => exact absurd rfl hds.nonempty
    | cons d ds =>
        unfold read
        split
        · next heq => exact absurd (congrArg List.head? heq) hzero
        · rw [htake, hdrop]

/-- A number that has been read starts with such digits, which end where the next part begins. -/
theorem exists_digits (h : read negative cs = (.integer n, some rest)) :
    ∃ ds after, cs = ds ++ after ∧ IsDigits ds ∧ (ds.head? = some '0' → ds = ['0']) ∧
      ∀ c ∈ after.head?, c.isDigit = false := by
  unfold read at h
  split at h
  · next after =>
    refine ⟨['0'], after, rfl, ⟨by simp, by simp⟩, fun _ => rfl, ?_⟩
    intro c hc
    obtain ⟨after', rfl⟩ := List.head?_eq_some_iff.mp hc
    by_cases hdigit : c.isDigit = true
    · simp [hdigit] at h
    · simpa using hdigit
  · next hzero =>
    obtain ⟨hdigits, hcs, hafter⟩ := digits_cut cs
    refine ⟨_, _, hcs, ⟨?_, hdigits⟩, ?_, hafter⟩
    · intro hnil
      rw [hnil] at h
      simp [missingDigits] at h
    · intro hhead
      obtain ⟨ds, hds⟩ := List.head?_eq_some_iff.mp hhead
      rw [hds] at hcs
      exact absurd hcs (hzero _)

/--
**A number is an integer if its text is one**: an integer of 64 bits is read from a literal for it
and from nothing else.
-/
theorem read_eq_integer (hfits : n.natAbs < unsignedBound) :
    read negative cs = (.integer n, some rest) ↔
      ∃ ds, Literal negative n ds ∧ cs = ds ++ rest ∧ Ended rest := by
  constructor
  · intro h
    obtain ⟨ds, after, hcs, hds, hshort, hafter⟩ := exists_digits h
    rw [hcs, read_append hds hshort hafter, tail_eq_integer] at h
    obtain ⟨hinteger, hrest, hpoint⟩ := h
    obtain ⟨hvalue, hnonzero⟩ := (ofInteger_eq_integer hfits).mp hinteger
    subst hrest
    refine ⟨ds, ⟨hds, hshort, hvalue, hnonzero⟩, hcs, ?_⟩
    intro c hc
    exact ⟨hafter c hc, hpoint c hc⟩
  · intro ⟨ds, ⟨hds, hshort, hvalue, hnonzero⟩, hcs, hended⟩
    rw [hcs, read_append hds hshort fun c hc => (hended c hc).1, tail_eq_integer]
    exact ⟨(ofInteger_eq_integer hfits).mpr ⟨hvalue, hnonzero⟩, rfl, fun c hc => (hended c hc).2⟩

end Mailroom.Json.Number
