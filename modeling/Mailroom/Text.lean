/-
Texts as lists of characters.

A text is taken apart in the same few ways wherever it comes from: blanks are dropped at
its ends, it is cut into lines, and positions in it are counted in bytes of UTF-8.  What
needs a table of characters of its own, words and grapheme clusters, has a module to itself.
-/

namespace Mailroom.Text

/-! ### Classes of characters -/

/-- Does the character lie in one of the ranges of code points, both ends included? -/
def inRanges (ranges : List (Nat × Nat)) (c : Char) : Bool :=
  ranges.any fun range => range.1 ≤ c.toNat && c.toNat ≤ range.2

/-! ### Blanks

They are dropped at both ends of a line before anything else looks at it, and because the
carriage return is one of them, the two common line ends need no separate treatment. -/

/-- Has the character the property White_Space? -/
def isBlank (c : Char) : Bool :=
  let n := c.toNat
  (9 ≤ n && n ≤ 13) || n == 0x20 || n == 0x85 || n == 0xA0 || n == 0x1680
    || (0x2000 ≤ n && n ≤ 0x200A) || n == 0x2028 || n == 0x2029 || n == 0x202F
    || n == 0x205F || n == 0x3000

/-- Drops the blanks at both ends. -/
def trim (cs : List Char) : List Char :=
  ((cs.dropWhile isBlank).reverse.dropWhile isBlank).reverse

/-- A line that holds nothing but blanks. -/
def isBlankLine (line : String) : Bool :=
  line.toList.all isBlank

/-! ### Lines

Texts come as characters and inputs as bytes that may be no text, so both functions work
on lists of anything. -/

section Lines

variable {α : Type} [DecidableEq α]

/--
The lines of a text without their line feeds.  A line feed ends a line, so a text that
ends in one has no further empty line after it.
-/
def lines (feed : α) : List α → List (List α)
  | [] => []
  | c :: rest =>
    if c = feed then [] :: lines feed rest
    else match lines feed rest with
      | [] => [[c]]
      | line :: others => (c :: line) :: others

/-- Drops the carriage return in front of each line feed. -/
def dropReturns (carriageReturn feed : α) : List α → List α
  | [] => []
  | [c] => [c]
  | c :: d :: rest =>
    if c = carriageReturn ∧ d = feed then dropReturns carriageReturn feed (d :: rest)
    else c :: dropReturns carriageReturn feed (d :: rest)

end Lines

/-! ### Positions in bytes of UTF-8 -/

/-- How many bytes the characters take up. -/
def byteLength : List Char → Nat
  | [] => 0
  | c :: rest => c.utf8Size + byteLength rest

/-- The characters in front of a byte position. -/
def before : Nat → List Char → List Char
  | _, [] => []
  | 0, _ => []
  | pos, c :: rest => c :: before (pos - c.utf8Size) rest

/-- What is left behind the characters that the first so many bytes belong to. -/
def dropBytes : Nat → List Char → List Char
  | _, [] => []
  | 0, cs => cs
  | count, c :: rest => dropBytes (count - c.utf8Size) rest

end Mailroom.Text
