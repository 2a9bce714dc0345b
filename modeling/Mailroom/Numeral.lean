/-
Decimal numerals.

Steps, tile indexes and values are written in decimal and read back from decimal, and
two readings are needed.  Steps and indexes are unsigned and values are signed; both
are held to 64 bits, so that a run of digits that is too long is no numeral at all and
falls back to being a name.  Leading zeros and a plus sign are allowed in both, which
makes reading many to one; writing always picks the shortest form.
-/

namespace Mailroom.Numeral

/-- Steps, indexes and counts are below this bound. -/
def unsignedBound : Nat := Nat.pow 2 64

/-- The number that a non-empty run of decimal digits denotes. -/
def digits? (cs : List Char) : Option Nat :=
  if cs.isEmpty then none
  else if cs.all Char.isDigit then some (Nat.ofDigitChars 10 cs 0)
  else none

/-- A plus sign may stand in front. -/
def unsigned? (s : String) : Option Nat :=
  let magnitude? := match s.toList with
    | '+' :: cs => digits? cs
    | cs => digits? cs
  magnitude?.filter (· < unsignedBound)

/-- An integer as a signed 64-bit word, if it fits one. -/
def word? (n : Int) : Option Int64 :=
  if Int64.minValue.toInt ≤ n ∧ n ≤ Int64.maxValue.toInt then some (Int64.ofInt n) else none

/-- A sign of either kind may stand in front, so that `-0` is read as zero. -/
def signed? (s : String) : Option Int64 :=
  match s.toList with
  | '+' :: cs => (digits? cs).bind fun n => word? n
  | '-' :: cs => (digits? cs).bind fun n => word? (-(n : Int))
  | cs => (digits? cs).bind fun n => word? n

/-- Decimal digits of a number, without leading zeros. -/
def ofNat (n : Nat) : String :=
  String.ofList (Nat.toDigits 10 n)

/-- A minus sign stands in front of a negative number. -/
def ofInt : Int → String
  | .ofNat n => ofNat n
  | .negSucc n => "-" ++ ofNat (n + 1)

/-- The digits of `n` filled up on the left to at least `width` characters. -/
def padded (fill : Char) (width n : Nat) : String :=
  String.ofList ((Nat.toDigits 10 n).leftpad width fill)

/-- Step numbers are written with three digits or more. -/
def ofStep (step : Nat) : String :=
  padded '0' 3 step

end Mailroom.Numeral
