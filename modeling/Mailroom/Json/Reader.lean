/-
Reading a text as JSON.

Each reader answers what it has read and what follows it, or nothing in place of what
follows if the text stops being JSON on the way.  Arrays and objects may be nested 127
deep.
-/
import Mailroom.Json.Number
import Mailroom.Json.Quoted

namespace Mailroom.Json

/-- Space, tab, line feed and carriage return may stand between the parts. -/
def skipSpace (cs : List Char) : List Char :=
  cs.dropWhile fun c => c == ' ' || c == '\n' || c == '\t' || c == '\r'

/-- How deep arrays and objects may be nested. -/
def maxDepth : Nat := 127

/-- Reads a word that has to be spelled out, and answers the value it stands for. -/
def literal (j : Json) : List Char → List Char → Json × Option (List Char)
  | [], cs => (j, some cs)
  | _ :: _, [] => (.broken .endsEarly, none)
  | c :: word, d :: rest => if c = d then literal j word rest else (.broken .malformed, none)

mutual

/-- Reads a value; `depth` more containers may be opened. -/
def readValue : Nat → Nat → List Char → Json × Option (List Char)
  | 0, _, _ => (.broken .endsEarly, none)
  | fuel + 1, depth, cs =>
    match skipSpace cs with
    | [] => (.broken .endsEarly, none)
    | '"' :: rest =>
      match Quoted.read rest with
      | .ok (s, rest) => (.string s, some rest)
      | .error fault => (.broken fault, none)
    | '[' :: rest =>
      match depth with
      | 0 => (.broken .malformed, none)
      | depth + 1 =>
        match skipSpace rest with
        | [] => (.array [] (some .endsEarly), none)
        | ']' :: rest => (.array [] none, some rest)
        | rest =>
          let (items, stop, rest) := readItems fuel depth rest
          (.array items stop, rest)
    | '{' :: rest =>
      match depth with
      | 0 => (.broken .malformed, none)
      | depth + 1 =>
        match skipSpace rest with
        | [] => (.object [] (some .endsEarly), none)
        | '}' :: rest => (.object [] none, some rest)
        | rest =>
          let (members, stop, rest) := readMembers fuel depth rest
          (.object members stop, rest)
    | 'n' :: rest => literal .null "ull".toList rest
    | 't' :: rest => literal (.bool true) "rue".toList rest
    | 'f' :: rest => literal (.bool false) "alse".toList rest
    | '-' :: rest => Number.read true rest
    | c :: rest => if c.isDigit then Number.read false (c :: rest) else (.broken .malformed, none)

/-- Reads items and the closing bracket; an item is due here. -/
def readItems : Nat → Nat → List Char → List Json × Option Fault × Option (List Char)
  | 0, _, _ => ([], some .endsEarly, none)
  | fuel + 1, depth, cs =>
    match readValue fuel depth cs with
    | (item, none) => ([item], none, none)
    | (item, some rest) =>
      match skipSpace rest with
      | [] => ([item], some .endsEarly, none)
      | ']' :: rest => ([item], none, some rest)
      | ',' :: rest =>
        let (items, stop, rest) := readItems fuel depth rest
        (item :: items, stop, rest)
      | _ => ([item], some .malformed, none)

/-- Reads members and the closing brace; a key is due here. -/
def readMembers : Nat → Nat → List Char →
    List (String × Json) × Option Fault × Option (List Char)
  | 0, _, _ => ([], some .endsEarly, none)
  | fuel + 1, depth, cs =>
    match skipSpace cs with
    | [] => ([], some .endsEarly, none)
    | '"' :: rest =>
      match Quoted.read rest with
      | .error fault => ([], some fault, none)
      | .ok (key, rest) =>
        match skipSpace rest with
        | [] => ([(key, .broken .endsEarly)], none, none)
        | ':' :: rest =>
          match readValue fuel depth rest with
          | (value, none) => ([(key, value)], none, none)
          | (value, some rest) =>
            match skipSpace rest with
            | [] => ([(key, value)], some .endsEarly, none)
            | '}' :: rest => ([(key, value)], none, some rest)
            | ',' :: rest =>
              let (members, stop, rest) := readMembers fuel depth rest
              ((key, value) :: members, stop, rest)
            | _ => ([(key, value)], some .malformed, none)
        | _ => ([(key, .broken .malformed)], none, none)
    | _ => ([], some .malformed, none)

end

/--
Reads a document and says whether only white space follows it.  Every second step uses
up a character, which makes twice the length of the text fuel enough.
-/
def read (s : String) : Json × Option Fault :=
  let cs := s.toList
  match readValue (2 * cs.length + 2) maxDepth cs with
  | (j, none) => (j, none)
  | (j, some rest) => (j, if (skipSpace rest).isEmpty then none else some .malformed)

/-- Reads a document and decodes it; what is wrong behind it counts last. -/
def decode {α : Type} (ofJson : Json → Except Error α) (s : String) : Except Error α := do
  let (j, trailing) := read s
  let a ← ofJson j
  match trailing with
  | some fault => .error (.text fault)
  | none => .ok a

end Mailroom.Json
