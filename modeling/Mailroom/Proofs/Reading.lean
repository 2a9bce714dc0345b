/-
What is printed can be typed in again.

Names and values are printed in one form and read in many.  Reading tries a number first, and what
is no number is kept as it is, so a text that was kept is printed and read without change, whatever
signs or digits of other scripts it holds.  A number loses its superfluous zeros and its plus sign,
and the steps gain some zeros; all numbers of 64 bits come back from that, the extremes included.

Only values can be mistaken for one another.  A letter is printed bare, so the letter of a digit is
read as the integer.  Such a letter was never read from a text in the first place, and so whatever
was read comes back (`Value.read?_text_of_read`).
-/
import Mailroom.Instruction
import Mailroom.Value
import Mailroom.Proofs.Numeral

namespace Mailroom

open Numeral (unsignedBound signed? unsigned?)

variable {s : String} {v : Value} {n : Nat}

/-! ### Names of tiles and of steps -/

theorem TileRef.ofString_index (h : n < unsignedBound) :
    TileRef.ofString (TileRef.index n).text = .index n := by
  rw [TileRef.text, TileRef.ofString, Numeral.unsigned?_ofNat h]

theorem Destination.ofString_step (h : n < unsignedBound) :
    Destination.ofString (Destination.step n).text = .step n := by
  rw [Destination.text, Destination.ofString, Numeral.unsigned?_ofStep h]

theorem TileRef.ofString_text (s : String) :
    TileRef.ofString (TileRef.ofString s).text = TileRef.ofString s := by
  cases hs : unsigned? s with
  | none =>
      have hlabel : TileRef.ofString s = .label s := by rw [TileRef.ofString, hs]
      rw [hlabel]
      exact hlabel
  | some i =>
      have hindex : TileRef.ofString s = .index i := by rw [TileRef.ofString, hs]
      rw [hindex]
      exact TileRef.ofString_index (Numeral.unsigned?_lt hs)

theorem Destination.ofString_text (s : String) :
    Destination.ofString (Destination.ofString s).text = Destination.ofString s := by
  cases hs : unsigned? s with
  | none =>
      have hlabel : Destination.ofString s = .label s := by rw [Destination.ofString, hs]
      rw [hlabel]
      exact hlabel
  | some i =>
      have hstep : Destination.ofString s = .step i := by rw [Destination.ofString, hs]
      rw [hstep]
      exact Destination.ofString_step (Numeral.unsigned?_lt hs)

/-! ### Values -/

namespace Value

/-- The integer that a digit denotes. -/
def ofDigit (c : Char) : Value :=
  .int (Int64.ofNat (c.toNat - '0'.toNat))

/-- What is read from the text of the value. -/
def reread : Value → Value
  | .int n => .int n
  | .letter c => if c.isDigit then ofDigit c else .letter c

/-- Of the single characters only the digits are numerals; a sign alone is none. -/
theorem signed?_singleton (c : Char) : signed? (String.ofList [c])
    = if c.isDigit then some (Int64.ofNat (c.toNat - '0'.toNat)) else none := by
  by_cases hc : c.isDigit = true
  · have hdigits : Numeral.IsDigits [c] := ⟨by simp, by simpa using hc⟩
    have hvalue : Nat.ofDigitChars 10 [c] 0 = c.toNat - '0'.toNat := by
      simp [Nat.ofDigitChars]
    have hsmall : c.toNat - '0'.toNat < 2 ^ 63 := by
      have hle : c.toNat < 2 ^ 32 := c.val.toNat_lt
      omega
    rw [if_pos hc, Numeral.signed?_of_isDigits hdigits, hvalue]
    exact Numeral.word?_eq_some.mpr (Int64.toInt_ofNat_of_lt hsmall)
  · rw [if_neg hc]
    have hnone : Numeral.digits? [c] = none := by simp [Numeral.digits?, hc]
    unfold signed?
    rw [String.toList_ofList]
    split
    · next h =>
      rw [(List.cons.inj h).2.symm]
      rfl
    · next h =>
      rw [(List.cons.inj h).2.symm]
      rfl
    · rw [hnone]
      rfl

theorem text_int (n : Int64) : (int n).text = Numeral.ofInt n.toInt := rfl

theorem text_letter (c : Char) : (letter c).text = String.ofList [c] := by
  simp [text]

theorem ofSingle?_eq_some : ofSingle? s = some v ↔ ∃ c, v = .letter c ∧ s = String.ofList [c] := by
  unfold ofSingle?
  constructor
  · intro h
    split at h
    · next c hc =>
      cases h
      exact ⟨c, rfl, by rw [← hc, String.ofList_toList]⟩
    · cases h
  · intro ⟨c, hv, hs⟩
    rw [hs, hv, String.toList_ofList]

/-- Only the letters of the digits are read as something else. -/
theorem read?_text (v : Value) : read? v.text = some v.reread := by
  cases v with
  | int n =>
      rw [read?, text_int, Numeral.signed?_ofInt]
      rfl
  | letter c =>
      have hsingle : ofSingle? (String.ofList [c]) = some (.letter c) :=
        ofSingle?_eq_some.mpr ⟨c, rfl, rfl⟩
      rw [read?, text_letter, signed?_singleton, hsingle, reread]
      by_cases hc : c.isDigit = true
      · rw [if_pos hc, if_pos hc]
        rfl
      · rw [if_neg hc, if_neg hc]

/-- A value that was read is read again from its text. -/
theorem read?_text_of_read (h : read? s = some v) : read? v.text = some v := by
  unfold read? at h
  split at h
  · cases h
    exact read?_text _
  · next hsigned =>
    obtain ⟨c, hv, hs⟩ := ofSingle?_eq_some.mp h
    rw [hv, text_letter, ← hs, read?, hsigned, ← hv]
    exact h

end Value

/--
**What is printed and read again is stable.**

Whatever a text was read as, a tile, a step or a value, its own text is read as the same.  A value
comes back from its text unless it is the letter of a digit, which comes back as the integer; so do
all numbers of tiles and steps.
-/
theorem printed_is_reread (s : String) (v : Value) :
    TileRef.ofString (TileRef.ofString s).text = TileRef.ofString s ∧
    Destination.ofString (Destination.ofString s).text = Destination.ofString s ∧
    (∀ w, Value.read? s = some w → Value.read? w.text = some w) ∧
    Value.read? v.text = some v.reread ∧
    ∀ n < unsignedBound, TileRef.ofString (TileRef.index n).text = .index n ∧
      Destination.ofString (Destination.step n).text = .step n := by
  refine ⟨TileRef.ofString_text s, Destination.ofString_text s, ?_, Value.read?_text v, ?_⟩
  · intro w hw
    exact Value.read?_text_of_read hw
  · intro n hn
    exact ⟨TileRef.ofString_index hn, Destination.ofString_step hn⟩

/-- The least integer, written with a superfluous zero, and the greatest number. -/
theorem extremes_reread :
    Value.read? "-09223372036854775808" = some (.int Int64.minValue) ∧
    Value.read? (Value.int Int64.minValue).text = some (.int Int64.minValue) ∧
    18446744073709551615 < unsignedBound ∧
    Destination.ofString (Destination.step 18446744073709551615).text
      = .step 18446744073709551615 := by
  obtain ⟨-, -, hvalue, -, hnumber⟩ := printed_is_reread "-09223372036854775808" (.letter '7')
  have hread : Value.read? "-09223372036854775808" = some (.int Int64.minValue) := by decide
  have hbound : 18446744073709551615 < unsignedBound := by decide
  exact ⟨hread, hvalue _ hread, hbound, (hnumber _ hbound).2⟩

end Mailroom
