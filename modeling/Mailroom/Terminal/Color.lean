/-
Colours for a terminal.

A coloured text stands between an escape sequence that switches its style on and one that
switches all styles off.  A text that holds the latter itself would lose its style from
there on, so the style is switched on again after each.

Lines of a listing are told apart by their beginning and end, as they are printed: labels
end in a colon, and the marks of a step stand behind two spaces.
-/

namespace Mailroom.Terminal

/-- The styles in use. -/
inductive Style where
  | greenBold
  | yellowBold
  | red
  | cyan
  deriving DecidableEq

/-- Switches the style on. -/
def Style.opening : Style → List Char
  | greenBold => "\x1b[1;32m".toList
  | yellowBold => "\x1b[1;33m".toList
  | red => "\x1b[31m".toList
  | cyan => "\x1b[36m".toList

/-- Switches all styles off. -/
def closing : List Char := "\x1b[0m".toList

/-- Switches the style on again wherever the text switches it off. -/
def reopen (opening : List Char) : List Char → List Char
  | [] => []
  | '\x1b' :: '[' :: '0' :: 'm' :: rest => closing ++ opening ++ reopen opening rest
  | c :: rest => c :: reopen opening rest

/-- The text in a style. -/
def Style.paint (s : Style) (text : String) : String :=
  String.ofList (s.opening ++ reopen s.opening text.toList ++ closing)

/-- The style of a line of a listing or of a message of the debugger. -/
def styleOf (line : List Char) : Option Style :=
  if line.head? != some ' ' && line.getLast? == some ':' then some .greenBold
  else
    match line with
    | ' ' :: ' ' :: _ :: '@' :: _ => some .yellowBold
    | ' ' :: ' ' :: '!' :: _ => some .red
    | _ =>
      if "Stopped".toList.isPrefixOf line || "Program finished".toList.isPrefixOf line then
        some .cyan
      else none

/-- The line in its style. -/
def colorize (line : String) : String :=
  match styleOf line.toList with
  | some s => s.paint line
  | none => line

end Mailroom.Terminal
