/-
Strings in JSON.

Any character but the quote, the backslash and the control characters stands for itself.
A backslash starts an escape, and characters beyond 16 bits are escaped as two
surrogates, which may not occur alone.
-/
import Mailroom.Json
import Mailroom.Text

namespace Mailroom.Json.Quoted

/-- The value of a hexadecimal digit of either case. -/
def hexDigit? (c : Char) : Option Nat :=
  if c.isDigit then some (c.toNat - '0'.toNat)
  else if 'a' ≤ c ∧ c ≤ 'f' then some (c.toNat - 'a'.toNat + 10)
  else if 'A' ≤ c ∧ c ≤ 'F' then some (c.toNat - 'A'.toNat + 10)
  else none

/-- Do the characters take up fewer than four bytes? -/
def isShort (cs : List Char) : Bool :=
  Text.byteLength (cs.take 4) < 4

/-- Four hexadecimal digits; the text ends early if it has not even four bytes left. -/
def unit (cs : List Char) : Except Fault (Nat × List Char) :=
  if isShort cs then .error .endsEarly
  else match cs with
    | a :: b :: c :: d :: rest =>
      match hexDigit? a, hexDigit? b, hexDigit? c, hexDigit? d with
      | some a, some b, some c, some d => .ok (((a * 16 + b) * 16 + c) * 16 + d, rest)
      | _, _, _, _ => .error .malformed
    | _ => .error .malformed

def isHighSurrogate (n : Nat) : Bool :=
  0xD800 ≤ n && n ≤ 0xDBFF

def isLowSurrogate (n : Nat) : Bool :=
  0xDC00 ≤ n && n ≤ 0xDFFF

/-- The rest of a text that has to start with the given character. -/
def expect (c : Char) : List Char → Except Fault (List Char)
  | [] => .error .endsEarly
  | d :: rest => if d = c then .ok rest else .error .malformed

/-- The character whose code is written after a backslash and a `u`. -/
def codePoint (cs : List Char) : Except Fault (Char × List Char) := do
  let (n, rest) ← unit cs
  if isLowSurrogate n then .error .malformed
  else if isHighSurrogate n then
    let (m, rest) ← unit (← expect 'u' (← expect '\\' rest))
    if isLowSurrogate m then
      .ok (Char.ofNat ((n - 0xD800) * 0x400 + (m - 0xDC00) + 0x10000), rest)
    else .error .malformed
  else .ok (Char.ofNat n, rest)

/-- The character that an escape stands for, from after the backslash. -/
def escape : List Char → Except Fault (Char × List Char)
  | [] => .error .endsEarly
  | 'u' :: rest => codePoint rest
  | c :: rest =>
    match c with
    | '"' | '\\' | '/' => .ok (c, rest)
    | 'b' => .ok ('\x08', rest)
    | 'f' => .ok ('\x0c', rest)
    | 'n' => .ok ('\n', rest)
    | 'r' => .ok ('\r', rest)
    | 't' => .ok ('\t', rest)
    | _ => .error .malformed

/--
The characters up to the closing quote, after those in `done`, which come in reverse.
Every step uses up at least one character, so the length of the text is fuel enough.
-/
def body : Nat → List Char → List Char → Except Fault (String × List Char)
  | 0, _, _ => .error .endsEarly
  | fuel + 1, done, cs =>
    match cs with
    | [] => .error .endsEarly
    | '"' :: rest => .ok (String.ofList done.reverse, rest)
    | '\\' :: rest => do
      let (c, rest) ← escape rest
      body fuel (c :: done) rest
    | c :: rest => if c.toNat < 0x20 then .error .malformed else body fuel (c :: done) rest

/-- Reads a string from after its opening quote. -/
def read (cs : List Char) : Except Fault (String × List Char) :=
  body (cs.length + 1) [] cs

end Mailroom.Json.Quoted
