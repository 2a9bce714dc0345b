/-
Numerals that are printed are read back as the same number.

Reading is more generous than printing: it takes leading zeros, and as many digits as
there are.  What it does not take is a number of more than 64 bits, so a number survives
only if it fits, and every number that was read does.
-/
import Mailroom.Numeral
import Mailroom.Proofs.Text.Word

namespace Mailroom

namespace Numeral

open Text (IsWord isWordChar)

/-- Only digits, and at least one. -/
structure IsDigits (cs : List Char) : Prop where
  nonempty : cs ≠ []
  digits : ∀ c ∈ cs, c.isDigit = true

theorem isDigits_toDigits (n : Nat) : IsDigits (Nat.toDigits 10 n) where
  nonempty := Nat.toDigits_ne_nil
  digits := by
    intro c hc
    exact Nat.isDigit_of_mem_toDigits (by decide) (by decide) hc

theorem isDigits_leftpad (width n : Nat) :
    IsDigits ((Nat.toDigits 10 n).leftpad width '0') where
  nonempty := by simp [List.leftpad]
  digits := by
    intro c hc
    rcases List.mem_append.mp hc with hc | hc
    · rw [List.eq_of_mem_replicate hc]
      rfl
    · exact (isDigits_toDigits n).digits c hc

theorem isWordChar_of_isDigit {c : Char} (h : c.isDigit = true) : isWordChar c = true := by
  have hbound : c.toNat < 128 := by
    simp only [Char.isDigit, Bool.and_eq_true, decide_eq_true_eq] at h
    have hle : c.toNat ≤ '9'.toNat := h.2
    have hnine : '9'.toNat = 57 := rfl
    omega
  simp [isWordChar, Text.isAlphanumeric_of_lt hbound, Char.isAlphanum, h]

/-- Numerals are words. -/
theorem IsDigits.isWord {cs : List Char} (h : IsDigits cs) : IsWord cs where
  nonempty := h.nonempty
  chars := by
    intro c hc
    exact isWordChar_of_isDigit (h.digits c hc)

theorem digits?_eq_some {cs : List Char} {n : Nat} :
    digits? cs = some n ↔ IsDigits cs ∧ Nat.ofDigitChars 10 cs 0 = n := by
  unfold digits?
  constructor
  · intro h
    split at h
    · cases h
    · next hne =>
      split at h
      · next hall => exact ⟨⟨by simpa using hne, List.all_eq_true.mp hall⟩, Option.some.inj h⟩
      · cases h
  · rintro ⟨⟨hne, hall⟩, rfl⟩
    rw [if_neg (by simpa using hne), if_pos (List.all_eq_true.mpr hall)]

/-- A word has no sign. -/
theorem unsigned?_of_isWord {cs : List Char} (h : IsWord cs) :
    unsigned? (String.ofList cs) = (digits? cs).filter (· < unsignedBound) := by
  unfold unsigned?
  rw [String.toList_ofList]
  split
  · next hplus => cases h.chars '+' List.mem_cons_self
  · rfl

/-- Digits are read as the number they denote, if it is not too big. -/
theorem unsigned?_of_isDigits {cs : List Char} (h : IsDigits cs) :
    unsigned? (String.ofList cs)
      = (some (Nat.ofDigitChars 10 cs 0)).filter (· < unsignedBound) := by
  rw [unsigned?_of_isWord h.isWord, digits?_eq_some.mpr ⟨h, rfl⟩]

/-- The text is a decimal numeral for the number, which fits 64 bits. -/
structure Denotes (s : String) (n : Nat) : Prop where
  digits : IsDigits s.toList
  value : Nat.ofDigitChars 10 s.toList 0 = n
  fits : n < unsignedBound

/-- A word is read as the number that it denotes. -/
theorem unsigned?_eq_some {s : String} {n : Nat} (h : IsWord s.toList) :
    unsigned? s = some n ↔ Denotes s n := by
  have hread := unsigned?_of_isWord h
  rw [String.ofList_toList] at hread
  rw [hread, Option.filter_eq_some_iff, digits?_eq_some, decide_eq_true_iff]
  constructor
  · intro ⟨⟨hdigits, hvalue⟩, hfits⟩
    exact ⟨hdigits, hvalue, hfits⟩
  · intro ⟨hdigits, hvalue, hfits⟩
    exact ⟨⟨hdigits, hvalue⟩, hfits⟩

theorem unsigned?_ofNat {n : Nat} (h : n < unsignedBound) : unsigned? (ofNat n) = some n := by
  rw [ofNat, unsigned?_of_isDigits (isDigits_toDigits n), Nat.ofDigitChars_ten_toDigits]
  simp [h]

/-- Leading zeros do not matter. -/
theorem unsigned?_ofStep {n : Nat} (h : n < unsignedBound) : unsigned? (ofStep n) = some n := by
  rw [ofStep, padded, unsigned?_of_isDigits (isDigits_leftpad 3 n), List.leftpad,
    Nat.ofDigitChars_append, Nat.ofDigitChars_replicate_zero, Nat.mul_zero,
    Nat.ofDigitChars_ten_toDigits]
  simp [h]

/-- The word is the integer itself, so there is one only for what fits. -/
theorem word?_eq_some {n : Int} {w : Int64} : word? n = some w ↔ w.toInt = n := by
  have hmin : Int64.minValue.toInt = -2 ^ 63 := by decide
  have hmax : Int64.maxValue.toInt = 2 ^ 63 - 1 := by decide
  unfold word?
  constructor
  · intro h
    split at h
    · next hfits =>
      cases h
      exact Int64.toInt_ofInt_of_le (by omega) (by omega)
    · cases h
  · rintro rfl
    rw [if_pos ⟨w.minValue_le_toInt, w.toInt_le⟩, w.ofInt_toInt]

/-- Whatever is read fits. -/
theorem unsigned?_lt {s : String} {n : Nat} (h : unsigned? s = some n) : n < unsignedBound := by
  unfold unsigned? at h
  simpa using (Option.filter_eq_some_iff.mp h).2

theorem isWord_ofNat (n : Nat) : IsWord (ofNat n).toList := by
  rw [ofNat, String.toList_ofList]
  exact (isDigits_toDigits n).isWord

theorem isWord_ofStep (n : Nat) : IsWord (ofStep n).toList := by
  rw [ofStep, padded, String.toList_ofList]
  exact (isDigits_leftpad 3 n).isWord

/-! ### Signed numerals -/

theorem signed?_of_isDigits {cs : List Char} (h : IsDigits cs) :
    signed? (String.ofList cs) = word? (Nat.ofDigitChars 10 cs 0) := by
  have hread := digits?_eq_some.mpr ⟨h, rfl⟩
  unfold signed?
  rw [String.toList_ofList]
  split
  · cases h.digits '+' List.mem_cons_self
  · cases h.digits '-' List.mem_cons_self
  · rw [hread]
    rfl

theorem signed?_of_minus {cs : List Char} (h : IsDigits cs) :
    signed? (String.ofList ('-' :: cs)) = word? (-(Nat.ofDigitChars 10 cs 0 : Int)) := by
  have hread := digits?_eq_some.mpr ⟨h, rfl⟩
  unfold signed?
  rw [String.toList_ofList]
  show (digits? cs).bind (fun n => word? (-(n : Int))) = _
  rw [hread]
  rfl

/-- The digits of an integer stand alone or behind a minus sign. -/
theorem ofInt_digits (n : Int) :
    (ofInt n).toList = Nat.toDigits 10 n.natAbs ∧ n = n.natAbs ∨
    (ofInt n).toList = '-' :: Nat.toDigits 10 n.natAbs ∧ n = -n.natAbs := by
  cases n with
  | ofNat k => exact .inl ⟨String.toList_ofList, rfl⟩
  | negSucc k =>
      refine .inr ⟨?_, rfl⟩
      show ("-" ++ ofNat (k + 1)).toList = _
      rw [String.toList_append]
      exact congrArg ('-' :: ·) String.toList_ofList

/-- Every integer of 64 bits is read back, the least one included. -/
theorem signed?_ofInt (n : Int64) : signed? (ofInt n.toInt) = some n := by
  have hdigits := isDigits_toDigits n.toInt.natAbs
  rw [← String.ofList_toList (s := ofInt n.toInt)]
  rcases ofInt_digits n.toInt with ⟨hchars, hvalue⟩ | ⟨hchars, hvalue⟩
  · rw [hchars, signed?_of_isDigits hdigits, Nat.ofDigitChars_ten_toDigits, ← hvalue]
    exact word?_eq_some.mpr rfl
  · rw [hchars, signed?_of_minus hdigits, Nat.ofDigitChars_ten_toDigits, ← hvalue]
    exact word?_eq_some.mpr rfl

/-- Where a printed integer ends can be seen, if no character of a word follows it. -/
theorem ofInt_append_inj {m n : Int} {s t : List Char} (hs : Text.Broken s) (ht : Text.Broken t)
    (h : (ofInt m).toList ++ s = (ofInt n).toList ++ t) : ofInt m = ofInt n ∧ s = t := by
  have hm := (isDigits_toDigits m.natAbs).isWord
  have hn := (isDigits_toDigits n.natAbs).isWord
  rw [← String.toList_inj]
  rcases ofInt_digits m with ⟨hmchars, -⟩ | ⟨hmchars, -⟩
  · rcases ofInt_digits n with ⟨hnchars, -⟩ | ⟨hnchars, -⟩
    · rw [hmchars, hnchars] at h ⊢
      exact hm.append_inj hn hs ht h
    · rw [hmchars, hnchars] at h
      exact absurd h (hm.append_ne_cons rfl)
  · rcases ofInt_digits n with ⟨hnchars, -⟩ | ⟨hnchars, -⟩
    · rw [hmchars, hnchars] at h
      exact absurd h.symm (hn.append_ne_cons rfl)
    · rw [hmchars, hnchars] at h ⊢
      obtain ⟨hdigits, hrest⟩ := hm.append_inj hn hs ht (List.cons.inj h).2
      exact ⟨congrArg _ hdigits, hrest⟩

end Numeral

end Mailroom
