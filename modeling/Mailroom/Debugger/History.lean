/-
The history of typed lines, and the file that keeps it between sessions.

The history holds the last hundred lines, and not the same line twice in a row.  In the
file each entry is one line under a header, with backslashes doubled.  A file without the
header holds the entries as they are.  The file is written only if a line was added.
-/
import Mailroom.Source
import Mailroom.Text

namespace Mailroom.Debugger

/-- Typed lines, the oldest first. -/
structure History where
  entries : Array String := #[]
  /-- Has a line been added since the file was read? -/
  changed : Bool := false
  deriving DecidableEq

namespace History

instance : Inhabited History := ⟨{}⟩

/-- How many lines are kept. -/
def capacity : Nat := 100

/-- The first line of the file. -/
def header : String := "#V2"

/-- Adds a line at the end, and drops the oldest one if there are too many. -/
def push (h : History) (line : String) : History :=
  if line.isEmpty || h.entries.back? == some line then h
  else
    let entries := h.entries.push line
    { entries := entries.extract (entries.size - capacity) entries.size, changed := true }

/-- Adds a typed line unless it is blank. -/
def record (h : History) (line : String) : History :=
  if Text.isBlankLine line then h else h.push line

/-! ### The file -/

/-- Backslash and line feed as they are written in the file. -/
def encode (entry : String) : String :=
  String.ofList <| entry.toList.flatMap fun
    | '\\' => ['\\', '\\']
    | '\n' => ['\\', 'n']
    | c => [c]

/-- Undoes `encode`; nothing if a backslash does not start an escape. -/
def decodeChars : List Char → Option (List Char)
  | [] => some []
  | '\\' :: '\\' :: rest => (decodeChars rest).map ('\\' :: ·)
  | '\\' :: 'n' :: rest => (decodeChars rest).map ('\n' :: ·)
  | c :: rest => if c = '\\' then none else (decodeChars rest).map (c :: ·)

/-- A line of the file as an entry; one that was not written by `encode` is left as it is. -/
def decode (line : List Char) : String :=
  String.ofList ((decodeChars line).getD line)

/-- The lines that the text of a file keeps, as they stand in it. -/
def fileEntries (text : String) : List String :=
  match Text.lines '\n' (Text.dropReturns '\r' '\n' text.toList) with
  | [] => []
  | first :: rest =>
    if first = header.toList then rest.map decode
    else String.ofList first :: rest.map String.ofList

/-- The history in the text of a file, to which the rules for new lines apply as well. -/
def ofText (text : String) : History :=
  { (fileEntries text).foldl push ({} : History) with changed := false }

/-- The history in a file; there is none before the first session. -/
def ofFile (file : Option ByteArray) : Except Source.Error History :=
  match file with
  | none => .ok {}
  | some bytes => (Source.decode bytes).map ofText

/-- The text of the file that keeps the history. -/
def text (h : History) : String :=
  String.join ((header :: h.entries.toList.map encode).map (· ++ "\n"))

/-- The file after the session, given the one before it. -/
def save (h : History) (before : Option ByteArray) : Option ByteArray :=
  if h.changed then some h.text.toUTF8 else before

end History

end Mailroom.Debugger
