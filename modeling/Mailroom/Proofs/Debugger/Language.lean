/-
The command language.

A line asks for something if it is, without the blanks around it, a letter that stands alone or
before a word (`Form`), and what it asks for is decided by the letter and the word (`Asks`).  Any
other line is unknown.  The two together are the whole language (`Reading`), and reading a line
gives the one answer that the language has for it.

A letter and its word may be written without a gap, so it is never a question where a letter ends:
it is the first character, and a word of two letters is a letter with a word of one.
-/
import Mailroom.Debugger.Command
import Mailroom.Proofs.Assembly.Grammar
import Mailroom.Proofs.Numeral

namespace Mailroom

open Text (IsWord isGap trim isBlank word?)

namespace Assembly.Reader

/-- One of some characters. -/
def oneOf (cs : List Char) : Reader Char
  | c :: rest => if c ∈ cs then some (c, rest) else none
  | [] => none

/-- As many spaces and tabs as there are. -/
def gaps : Reader Unit :=
  fun cs => some ((), cs.dropWhile isGap)

end Assembly.Reader

namespace Debugger.Command

open Assembly (Reader)

/-! ### The language -/

/-- A letter that stands alone, or before a word with or without a gap. -/
inductive Form : String → Char → Option String → Prop
  | alone {letter : Char} (hletter : letter ∈ letters) : Form letter.toString letter none
  | before {letter : Char} {gap word : String} (hletter : letter ∈ letters)
      (hgap : ∀ c ∈ gap.toList, c = ' ' ∨ c = '\t') (hword : IsWord word.toList) :
      Form (letter.toString ++ gap ++ word) letter (some word)

/-- The letters that take no word, with what they ask for. -/
def plain : List (Char × Command) :=
  [('a', .accumulator), ('c', .continue), ('e', .everything), ('i', .inbox), ('o', .outbox),
   ('q', .quit), ('r', .restart), ('s', .step), ('?', .help)]

/-- What a letter asks for, alone or with a word, or what is wrong with it. -/
inductive Asks : Char → Option String → Except Error Command → Prop
  | breakpoint (word : Option String) : Asks 'b' word (.ok (.breakpoint word))
  | memory (word : Option String) : Asks 'm' word (.ok (.memory word))
  | listAll : Asks 'l' none (.ok (.list none))
  | list {word : String} {n : Nat} (h : Numeral.Denotes word n) :
      Asks 'l' (some word) (.ok (.list (some n)))
  | badCount {word : String} (h : ∀ n, ¬ Numeral.Denotes word n) :
      Asks 'l' (some word) (.error (.invalidCount word))
  | plain {letter : Char} {command : Command} (h : (letter, command) ∈ plain) :
      Asks letter none (.ok command)
  | unexpected {letter : Char} {command : Command} (h : (letter, command) ∈ plain)
      (word : String) : Asks letter (some word) (.error (.unexpectedArgument letter))

/-- How a line without blanks at its ends is read. -/
inductive Reading (t : String) : Except Error Command → Prop
  | form {letter : Char} {word : Option String} {answer : Except Error Command}
      (hform : Form t letter word) (hasks : Asks letter word answer) : Reading t answer
  | unknown (h : ∀ letter word, ¬ Form t letter word) : Reading t (.error (.unknownCommand t))

/-! ### Commands written down -/

/-- The letter that asks for the command. -/
def letter : Command → Char
  | accumulator => 'a'
  | breakpoint _ => 'b'
  | .continue => 'c'
  | everything => 'e'
  | inbox => 'i'
  | list _ => 'l'
  | memory _ => 'm'
  | outbox => 'o'
  | quit => 'q'
  | restart => 'r'
  | step => 's'
  | help => '?'

/-- The word behind the letter. -/
def argument : Command → Option String
  | breakpoint target => target
  | memory key => key
  | list count => count.map Numeral.ofNat
  | _ => none

/-- The letter, followed by a space and the word if there is one. -/
def phrase (command : Command) : String :=
  match command.argument with
  | none => command.letter.toString
  | some word => command.letter.toString ++ " " ++ word

/-- Names are words, and a count fits 64 bits. -/
def Sayable : Command → Prop
  | breakpoint target => ∀ word ∈ target, IsWord word.toList
  | memory key => ∀ word ∈ key, IsWord word.toList
  | list count => ∀ n ∈ count, n < Numeral.unsignedBound
  | _ => True

/-! ### What a letter asks for -/

/-- The answer to a letter and the word behind it, if there is one. -/
def build (letter : Char) : Option String → Except Error Command
  | none =>
    match ofLetter? letter with
    | some command => .ok command
    | none => .error (.unknownCommand letter.toString)
  | some word => ofLetterWord letter word

variable {t : String} {letter : Char} {word : Option String} {answer : Except Error Command}
  {command : Command}

theorem ofLetter?_isSome : (ofLetter? letter).isSome = true ↔ letter ∈ letters := by
  constructor
  · intro h
    unfold ofLetter? at h
    split at h
    case h_13 => cases h
    all_goals decide
  · intro h
    have hall : letters.all (fun c => (ofLetter? c).isSome) = true := by decide
    exact List.all_eq_true.mp hall letter h

theorem ofLetter?_of_plain (h : (letter, command) ∈ plain) : ofLetter? letter = some command := by
  have hall : plain.all (fun entry => ofLetter? entry.1 = some entry.2) = true := by decide
  simpa using List.all_eq_true.mp hall (letter, command) h

theorem ofLetterWord_of_plain (h : (letter, command) ∈ plain) (w : String) :
    ofLetterWord letter w = .error (.unexpectedArgument letter) := by
  have hall : plain.all (fun entry => entry.1 ∉ ['b', 'l', 'm']) = true := by decide
  have hno : letter ∉ ['b', 'l', 'm'] := by
    simpa using List.all_eq_true.mp hall (letter, command) h
  unfold ofLetterWord
  split
  · exact absurd (by simp) hno
  · exact absurd (by simp) hno
  · exact absurd (by simp) hno
  · rfl

/-- Only three letters take a word. -/
theorem plain_of_letter (h : letter ∈ letters) :
    letter = 'b' ∨ letter = 'm' ∨ letter = 'l' ∨ ∃ command, (letter, command) ∈ plain := by
  have hall : letters.all (fun c => c = 'b' ∨ c = 'm' ∨ c = 'l' ∨ c ∈ plain.map Prod.fst)
      = true := by
    decide
  have hletter := of_decide_eq_true (List.all_eq_true.mp hall letter h)
  simpa only [List.mem_map, Prod.exists, exists_and_right, exists_eq_right] using hletter

theorem build_of_asks (hword : ∀ w ∈ word, IsWord w.toList) (h : Asks letter word answer) :
    build letter word = answer := by
  cases h with
  | breakpoint word =>
      cases word with
      | none => rfl
      | some w => rfl
  | memory word =>
      cases word with
      | none => rfl
      | some w => rfl
  | listAll => rfl
  | list hdenotes =>
      show ofLetterWord 'l' _ = _
      simp only [ofLetterWord, (Numeral.unsigned?_eq_some (hword _ rfl)).mpr hdenotes]
  | @badCount w hnone =>
      have hread : Numeral.unsigned? w = none := by
        rw [Option.eq_none_iff_forall_ne_some]
        intro n hn
        exact hnone n ((Numeral.unsigned?_eq_some (hword w rfl)).mp hn)
      show ofLetterWord 'l' w = _
      simp only [ofLetterWord, hread]
  | plain hplain => simp only [build, ofLetter?_of_plain hplain]
  | unexpected hplain w => exact ofLetterWord_of_plain hplain w

/-- Every letter asks for something, with a word and without. -/
theorem asks_build (hletter : letter ∈ letters) (hword : ∀ w ∈ word, IsWord w.toList) :
    Asks letter word (build letter word) := by
  have hasks : ∃ answer, Asks letter word answer := by
    rcases plain_of_letter hletter with rfl | rfl | rfl | ⟨command, hplain⟩
    · exact ⟨_, .breakpoint word⟩
    · exact ⟨_, .memory word⟩
    · cases word with
      | none => exact ⟨_, .listAll⟩
      | some w =>
          by_cases hdenotes : ∃ n, Numeral.Denotes w n
          · obtain ⟨n, hn⟩ := hdenotes
            exact ⟨_, .list hn⟩
          · exact ⟨_, .badCount (not_exists.mp hdenotes)⟩
    · cases word with
      | none => exact ⟨_, .plain hplain⟩
      | some w => exact ⟨_, .unexpected hplain w⟩
  obtain ⟨answer, hanswer⟩ := hasks
  rw [build_of_asks hword hanswer]
  exact hanswer

/-! ### The form of a line -/

theorem Form.letter_mem (h : Form t letter word) : letter ∈ letters := by
  cases h with
  | alone hletter => exact hletter
  | before hletter _ _ => exact hletter

theorem Form.isWord (h : Form t letter word) : ∀ w ∈ word, IsWord w.toList := by
  intro w hw
  cases h with
  | alone _ => cases hw
  | before _ _ hword =>
      cases hw
      exact hword

theorem asks_iff (h : Form t letter word) :
    Asks letter word answer ↔ build letter word = answer := by
  constructor
  · exact build_of_asks h.isWord
  · intro heq
    rw [← heq]
    exact asks_build h.letter_mem h.isWord

theorem isGap_iff {c : Char} : isGap c = true ↔ c = ' ' ∨ c = '\t' := by
  simp [isGap]

/-- Nothing of a form is trimmed. -/
theorem Form.trim_eq (h : Form t letter word) : trim t.toList = t.toList := by
  have hblank : isBlank letter = false := by
    have hall : letters.all (fun c => !isBlank c) = true := by decide
    simpa using List.all_eq_true.mp hall letter h.letter_mem
  cases h with
  | alone _ =>
      refine Text.trim_eq_self ?_ ?_ <;> simpa [Char.toString] using hblank
  | before _ _ hword =>
      refine Text.trim_eq_self ?_ ?_
      · simpa [Char.toString] using hblank
      · rw [String.toList_append]
        exact hword.last_not_blank _

/-- A letter, and then if possible a gap and a word. -/
def reader : Reader (Char × Option String) :=
  Reader.pair (Reader.oneOf letters) (Reader.opt (Reader.preceded Reader.gaps word?))

theorem complete_reader_cons (letter : Char) (rest : List Char) :
    Reader.complete reader (letter :: rest) =
      if letter ∉ letters then none
      else if rest = [] then some ((letter, none), [])
      else (word? (rest.dropWhile isGap)).bind fun read =>
        if read.2 = [] then some ((letter, some read.1), []) else none := by
  rw [reader, Reader.complete_pair, Reader.oneOf]
  by_cases hletter : letter ∈ letters
  · rw [if_pos hletter, if_neg (not_not.mpr hletter), Option.bind_some]
    cases rest with
    | nil => rfl
    | cons c rest =>
        have hne : c :: rest ≠ [] := List.cons_ne_nil c rest
        rw [if_neg hne, Reader.map, Reader.complete_opt hne, Reader.map,
          Reader.complete_preceded, Reader.gaps, Option.bind_some, Reader.complete]
        rcases word? ((c :: rest).dropWhile isGap) with _ | ⟨w, _ | ⟨d, tail⟩⟩ <;> rfl
  · rw [if_neg hletter, if_pos hletter]
    rfl

/-- A letter before what is a word behind its gap. -/
theorem form_of_word {w : String} {rest : List Char} (hletter : letter ∈ letters)
    (h : word? (rest.dropWhile isGap) = some (w, [])) :
    Form (String.ofList (letter :: rest)) letter (some w) := by
  obtain ⟨hword, hdrop, -⟩ := Text.word?_eq_some.mp h
  have hgap : ∀ c ∈ (String.ofList (rest.takeWhile isGap)).toList, c = ' ' ∨ c = '\t' := by
    intro c hc
    rw [String.toList_ofList] at hc
    exact isGap_iff.mp (List.mem_takeWhile_imp hc)
  have hsplit := rest.takeWhile_append_dropWhile (p := isGap)
  rw [hdrop, List.append_nil] at hsplit
  have htext : String.ofList (letter :: rest)
      = letter.toString ++ String.ofList (rest.takeWhile isGap) ++ w := by
    apply String.toList_injective
    simp [Char.toString, hsplit]
  rw [htext]
  exact .before hletter hgap hword

/-- The reader recognizes nothing but the forms, -/
theorem form_of_complete {left : List Char}
    (h : Reader.complete reader t.toList = some ((letter, word), left)) :
    Form t letter word := by
  obtain ⟨cs, rfl⟩ : ∃ cs, t = String.ofList cs := ⟨t.toList, String.ofList_toList.symm⟩
  rw [String.toList_ofList] at h
  cases cs with
  | nil => cases h
  | cons c rest =>
      rw [complete_reader_cons] at h
      by_cases hc : c ∈ letters
      · rw [if_neg (not_not.mpr hc)] at h
        by_cases hrest : rest = []
        · rw [if_pos hrest] at h
          cases h
          rw [hrest]
          exact .alone hc
        · rw [if_neg hrest] at h
          obtain ⟨⟨w, behind⟩, hread, h⟩ := Option.bind_eq_some_iff.mp h
          by_cases hbehind : behind = []
          · subst hbehind
            cases h
            exact form_of_word hc hread
          · rw [if_neg hbehind] at h
            cases h
      · rw [if_pos hc] at h
        cases h

/-- and all of them. -/
theorem complete_of_form (h : Form t letter word) :
    Reader.complete reader t.toList = some ((letter, word), []) := by
  cases h with
  | alone hletter =>
      have htext : letter.toString.toList = [letter] := by simp [Char.toString]
      rw [htext, complete_reader_cons, if_neg (not_not.mpr hletter), if_pos rfl]
  | @before _ gap w hletter hgap hword =>
      have htext : (letter.toString ++ gap ++ w).toList = letter :: (gap.toList ++ w.toList) := by
        simp [Char.toString]
      have hgaps : ∀ c ∈ gap.toList, isGap c = true := fun c hc => isGap_iff.mpr (hgap c hc)
      have hdrop : (gap.toList ++ w.toList).dropWhile isGap = w.toList := by
        rw [List.dropWhile_append_of_pos hgaps]
        exact Assembly.Line.dropWhile_gap_chars (a := ⟨w, false⟩) hword
      have hread : word? w.toList = some (w, []) :=
        Text.word?_eq_some.mpr ⟨hword, (List.append_nil _).symm, Text.broken_nil⟩
      have hne : gap.toList ++ w.toList ≠ [] := by
        intro hnil
        exact hword.nonempty (List.append_eq_nil_iff.mp hnil).2
      rw [htext, complete_reader_cons, if_neg (not_not.mpr hletter), if_neg hne, hdrop, hread]
      rfl

/-! ### Reading a line -/

/-- The answer to what the reader finds, which must be all there is. -/
def interpret (t : List Char) : Except Error Command :=
  match Reader.complete reader t with
  | some ((letter, word), _) => build letter word
  | none => .error (.unknownCommand (String.ofList t))

/-- A line is read like by the reader that is put together from parts. -/
theorem read_eq_interpret (line : String) : read line = interpret (trim line.toList) := by
  unfold read interpret
  cases htrim : trim line.toList with
  | nil => rfl
  | cons letter rest =>
      rw [complete_reader_cons]
      by_cases hletter : letter ∈ letters
      · obtain ⟨command, hcommand⟩ := Option.isSome_iff_exists.mp (ofLetter?_isSome.mpr hletter)
        rw [if_neg (not_not.mpr hletter)]
        cases rest with
        | nil => simp only [hcommand, build, if_true]
        | cons c rest =>
            rw [if_neg (List.cons_ne_nil c rest)]
            simp only [hcommand]
            rcases word? ((c :: rest).dropWhile isGap) with _ | ⟨w, _ | ⟨d, tail⟩⟩ <;> rfl
      · have hnone : ofLetter? letter = none := by
          rw [← Option.not_isSome_iff_eq_none, ofLetter?_isSome]
          exact hletter
        simp only [hnone, if_pos hletter]

/-- A line of a form is answered by its letter. -/
theorem read_of_form (h : Form t letter word) : read t = build letter word := by
  rw [read_eq_interpret, interpret, h.trim_eq, complete_of_form h]

theorem read_eq_iff (line : String) :
    read line = answer ↔ Reading (String.ofList (trim line.toList)) answer := by
  have hread : read line = interpret (String.ofList (trim line.toList)).toList := by
    rw [String.toList_ofList, read_eq_interpret]
  rw [hread]
  generalize String.ofList (trim line.toList) = t
  constructor
  · intro h
    cases hcomplete : Reader.complete reader t.toList with
    | none =>
        rw [interpret, hcomplete, String.ofList_toList] at h
        rw [← h]
        refine .unknown ?_
        intro letter word hform
        cases hcomplete.symm.trans (complete_of_form hform)
    | some found =>
        obtain ⟨⟨letter, word⟩, rest⟩ := found
        have hform := form_of_complete hcomplete
        rw [interpret, hcomplete] at h
        exact .form hform ((asks_iff hform).mpr h)
  · intro h
    cases h with
    | form hform hasks =>
        rw [interpret, complete_of_form hform]
        exact (asks_iff hform).mp hasks
    | unknown hnone =>
        have hcomplete : Reader.complete reader t.toList = none := by
          rw [Option.eq_none_iff_forall_ne_some]
          intro found hfound
          exact hnone _ _ (form_of_complete hfound)
        rw [interpret, hcomplete, String.ofList_toList]

/-! ### Reading what was written down -/

theorem letter_mem_letters (command : Command) : command.letter ∈ letters := by
  have hcontains : letters.contains command.letter = true := by
    cases command <;> rfl
  exact List.contains_iff_mem.mp hcontains

theorem Sayable.isWord (h : command.Sayable) : ∀ word ∈ command.argument, IsWord word.toList := by
  intro word hword
  cases command with
  | breakpoint target => exact h word hword
  | memory key => exact h word hword
  | list count =>
      obtain ⟨n, -, rfl⟩ := Option.map_eq_some_iff.mp hword
      exact Numeral.isWord_ofNat n
  | _ => cases hword

theorem Sayable.form_phrase (h : command.Sayable) :
    Form command.phrase command.letter command.argument := by
  have hword := h.isWord
  unfold phrase
  cases hargument : command.argument with
  | none => exact .alone command.letter_mem_letters
  | some word =>
      rw [hargument] at hword
      exact .before command.letter_mem_letters (by simp) (hword word rfl)

theorem Sayable.asks (h : command.Sayable) :
    Asks command.letter command.argument (.ok command) := by
  cases command with
  | breakpoint target => exact .breakpoint target
  | memory key => exact .memory key
  | list count =>
      cases count with
      | none => exact .listAll
      | some n =>
          have hread := Numeral.unsigned?_ofNat (h n rfl)
          exact .list ((Numeral.unsigned?_eq_some (Numeral.isWord_ofNat n)).mp hread)
  | _ => exact .plain (by decide)

/--
**Exactly the command language is understood.**  A line is answered as the language has it for what
is left without the blanks at its ends.  So every command is understood that is written with its
letter and its argument.  To read the line part by part makes no difference.
-/
theorem read_iff_language :
    (∀ line answer, read line = answer ↔ Reading (String.ofList (trim line.toList)) answer) ∧
    (∀ command : Command, command.Sayable → read command.phrase = .ok command) ∧
    (∀ line, read line = interpret (trim line.toList)) := by
  refine ⟨fun line answer => read_eq_iff line, ?_, read_eq_interpret⟩
  intro command h
  rw [read_of_form h.form_phrase]
  exact (asks_iff h.form_phrase).mp h.asks

/-- A count of 64 bits. -/
theorem greatest_count_read :
    (Command.list (some 18446744073709551615)).Sayable ∧
    read "l 18446744073709551615" = .ok (.list (some 18446744073709551615)) := by
  have hsayable : (Command.list (some 18446744073709551615)).Sayable := by
    intro n hn
    cases hn
    decide
  have hphrase : (Command.list (some 18446744073709551615)).phrase = "l 18446744073709551615" := by
    decide +kernel
  refine ⟨hsayable, ?_⟩
  rw [← hphrase]
  exact read_iff_language.2.1 _ hsayable

/-- Letters of two commands in a row, and digits that are none of ASCII. -/
example : read "sb" = .error (.unexpectedArgument 's') ∧
    read " lm\t" = .error (.invalidCount "m") ∧ read "l\t ١" = .error (.invalidCount "١") ∧
    read "l 007" = .ok (.list (some 7)) ∧ read "b 1 2" = .error (.unknownCommand "b 1 2") := by
  decide +kernel

end Debugger.Command

end Mailroom
