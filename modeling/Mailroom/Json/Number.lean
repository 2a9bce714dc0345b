/-
Numbers in JSON.

A number is a sign, an integer part without superfluous zeros, and optionally a fraction
and an exponent.  Only integers are of use here, and a number with a fraction or an
exponent is merely not an integer; but one that is too large for a 64-bit binary
floating-point number is no number at all, so its size has to be found out.

The size is that of the digits taken as an integer of at most 64 bits, rounded to a
53-bit significand, times a power of ten rounded in the same way.  Digits that no longer
fit into 64 bits count as zeros before the point and are dropped after it.
-/
import Mailroom.Json

namespace Mailroom.Json.Number

/-- The nearest number whose binary significand has 53 bits; a tie goes to the even one. -/
def round53 (n : Nat) : Nat :=
  let excess := n.log2 + 1 - 53
  let unit := Nat.pow 2 excess
  let quotient := n / unit
  let twice := 2 * (n % unit)
  let up := twice > unit || (twice == unit && quotient % 2 == 1)
  (if up then quotient + 1 else quotient) * unit

/-- Numbers from here on are nearer to 2 to the 1024th than to any lesser 53-bit number. -/
def overflowBound : Nat :=
  Nat.pow 2 1024 - Nat.pow 2 970

/-- Is the number `significand * 10 ^ exponent` beyond the floating-point range? -/
def isTooLarge (significand : Nat) (exponent : Int) : Bool :=
  match exponent with
  | .negSucc _ => false
  | .ofNat e =>
    significand != 0 &&
      (308 < e || overflowBound ≤ round53 significand * round53 (Nat.pow 10 e))

/-- The value of a digit. -/
def digit (c : Char) : Nat :=
  c.toNat - '0'.toNat

/-- Appends digits while they fit into 64 bits and counts those that do not. -/
def collect (significand : Nat) : List Char → Nat × Nat
  | [] => (significand, 0)
  | c :: rest =>
    let more := significand * 10 + digit c
    if more < Numeral.unsignedBound then collect more rest
    else (significand, rest.length + 1)

/-- An integer as a JSON value. -/
def ofInteger (negative : Bool) (digits : List Char) : Json :=
  let (significand, dropped) := collect 0 digits
  if isTooLarge significand dropped then .broken .malformed
  else
    let n := Nat.ofDigitChars 10 digits 0
    if negative then
      if n = 0 then .fractional else .integer (-(n : Int))
    else .integer n

/-- A number with a fraction or an exponent as a JSON value. -/
def ofParts (digits fraction : List Char) (exponent : Int) : Json :=
  let (significand, dropped) := collect 0 digits
  let (significand, lost) := collect significand fraction
  let places := fraction.length - lost
  if isTooLarge significand (dropped - places + exponent) then .broken .malformed
  else .fractional

/-- What follows the number; nothing if the text stops being JSON within it. -/
abbrev Rest := Option (List Char)

/-- A required run of digits is missing here. -/
def missingDigits (cs : List Char) : Json × Rest :=
  (.broken (if cs.isEmpty then .endsEarly else .malformed), none)

/-- The number is complete unless it is too large. -/
def finish (j : Json) (rest : List Char) : Json × Rest :=
  match j with
  | .broken fault => (.broken fault, none)
  | j => (j, some rest)

/-- Reads on after the letter of an exponent. -/
def exponent (digits fraction cs : List Char) : Json × Rest :=
  let (negative, cs) := match cs with
    | '-' :: cs => (true, cs)
    | '+' :: cs => (false, cs)
    | cs => (false, cs)
  match cs.takeWhile Char.isDigit with
  | [] => missingDigits cs
  | power =>
    let size : Int := Nat.ofDigitChars 10 power 0
    finish (ofParts digits fraction (if negative then -size else size))
      (cs.dropWhile Char.isDigit)

/-- Reads on after a decimal point. -/
def fraction (digits cs : List Char) : Json × Rest :=
  match cs.takeWhile Char.isDigit with
  | [] => missingDigits cs
  | places =>
    match cs.dropWhile Char.isDigit with
    | 'e' :: rest | 'E' :: rest => exponent digits places rest
    | rest => finish (ofParts digits places 0) rest

/-- Reads on after the integer part. -/
def tail (negative : Bool) (digits cs : List Char) : Json × Rest :=
  match cs with
  | '.' :: rest => fraction digits rest
  | 'e' :: rest | 'E' :: rest => exponent digits [] rest
  | rest => finish (ofInteger negative digits) rest

/-- Reads a number that starts here after its sign. -/
def read (negative : Bool) (cs : List Char) : Json × Rest :=
  match cs with
  | '0' :: rest =>
    match rest with
    | c :: _ => if c.isDigit then (.broken .malformed, none) else tail negative ['0'] rest
    | [] => tail negative ['0'] rest
  | cs =>
    match cs.takeWhile Char.isDigit with
    | [] => missingDigits cs
    | digits => tail negative digits (cs.dropWhile Char.isDigit)

end Mailroom.Json.Number
