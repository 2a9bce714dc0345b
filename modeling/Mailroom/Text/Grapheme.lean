/-
Grapheme clusters: what a reader takes for one character.

A letter with its accents, a syllable, a flag or a family of pictographs is written with
several characters and still is one thing to a reader.  A text is cut into such clusters
between every two characters, except where the second clings to the first.  Whether it
does depends on the classes of the two and, for consonants, pictographs and flags, on
what the text in front of them ends in, which the cut carries along as a `Tail`.
-/
import Mailroom.Text.Grapheme.BreakClass

namespace Mailroom.Text

namespace BreakClass

/-- Nothing clings to these but a line feed to a carriage return. -/
def isAlone : BreakClass → Bool
  | carriageReturn | lineFeed | control => true
  | _ => false

/-- These cling to whatever stands in front of them. -/
def isMark : BreakClass → Bool
  | extend | nonJoiner | linker | joiner | spacing => true
  | _ => false

/-- Does the second of two letters or syllables of Hangul go on with the first? -/
def continuesSyllable : BreakClass → BreakClass → Bool
  | leading, leading | leading, vowel | leading, openSyllable | leading, closedSyllable => true
  | vowel, vowel | vowel, trailing | openSyllable, vowel | openSyllable, trailing => true
  | trailing, trailing | closedSyllable, trailing => true
  | _, _ => false

end BreakClass

/-! ### What a text ends in -/

/-- The end of a text, as far as it decides what may cling to it. -/
inductive Tail where
  | plain
  /-- The first half of a flag. -/
  | halfFlag
  /-- A pictograph with its marks. -/
  | pictograph
  /-- The same, then a joiner. -/
  | joinedPictograph
  /-- A consonant with its marks, none of which is a linker. -/
  | consonant
  /-- A consonant with its marks, one of which is a linker. -/
  | linkedConsonant
  deriving DecidableEq

namespace Tail

/-- The end of the text after one more character. -/
def push : Tail → BreakClass → Tail
  | halfFlag, .regional => plain
  | _, .regional => halfFlag
  | _, .pictograph => pictograph
  | _, .consonant => consonant
  | pictograph, .extend | pictograph, .nonJoiner | pictograph, .linker => pictograph
  | pictograph, .joiner => joinedPictograph
  | consonant, .extend | consonant, .joiner => consonant
  | consonant, .linker => linkedConsonant
  | linkedConsonant, .extend | linkedConsonant, .joiner | linkedConsonant, .linker =>
    linkedConsonant
  | _, _ => plain

/-- Does the end of the text wait for a character of this class? -/
def awaits : Tail → BreakClass → Bool
  | halfFlag, .regional => true
  | joinedPictograph, .pictograph => true
  | linkedConsonant, .consonant => true
  | _, _ => false

end Tail

/-- Does a character cling to the one in front of it, the last one of the given tail? -/
def clings (last : BreakClass) (tail : Tail) (next : BreakClass) : Bool :=
  if last.isAlone || next.isAlone then last = .carriageReturn && next = .lineFeed
  else next.isMark || last = .preceding || last.continuesSyllable next || tail.awaits next

/-! ### Clusters -/

/-- What belongs to the cluster that the text in front ends in, and the clusters after it. -/
def cutAfter (last : BreakClass) (tail : Tail) : List Char → List Char × List (List Char)
  | [] => ([], [])
  | c :: rest =>
    let next := breakClass c
    let (own, others) := cutAfter next (tail.push next) rest
    if clings last tail next then (c :: own, others) else ([], (c :: own) :: others)

/-- The text cut into its clusters. -/
def clusters : List Char → List (List Char)
  | [] => []
  | c :: rest =>
    let (own, others) := cutAfter (breakClass c) (Tail.plain.push (breakClass c)) rest
    (c :: own) :: others

end Mailroom.Text
