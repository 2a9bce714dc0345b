/-
What is completed is understood.

A line is completed at its cursor, and where the word starts that is to be completed is found
without asking for the meaning of the line: it starts behind the last space in front of the
cursor, or else with the line (`Cut`).  The cut is between two characters wherever the cursor is,
because a space is one character of one byte, so counting bytes and counting characters find the
same place.

A command that names a step or a tile is a letter, spaces and a name.  When it is completed, the
word at the cursor is the beginning of that name, so the line up to the word, with a name behind it,
is such a command again.
-/
import Mailroom.Debugger.Completion
import Mailroom.Proofs.Debugger.Language

namespace Mailroom

open Text (IsWord isWordChar byteLength)

/-! ### Positions -/

namespace Text

theorem byteLength_append (cs ds : List Char) :
    byteLength (cs ++ ds) = byteLength cs + byteLength ds := by
  induction cs with
  | nil => exact (Nat.zero_add _).symm
  | cons c cs ih =>
      show c.utf8Size + byteLength (cs ++ ds) = c.utf8Size + byteLength cs + byteLength ds
      rw [ih]
      omega

/-- Bytes are counted as the library counts them. -/
theorem byteLength_toList (s : String) : byteLength s.toList = s.utf8ByteSize := by
  have hlist : ∀ cs : List Char, byteLength cs = (String.ofList cs).utf8ByteSize := by
    intro cs
    induction cs with
    | nil => rfl
    | cons c cs ih =>
        have hcons : String.ofList (c :: cs) = String.singleton c ++ String.ofList cs := by
          apply String.toList_injective
          simp
        rw [hcons, String.utf8ByteSize_append, String.utf8ByteSize_singleton, ← ih]
        rfl
  rw [hlist, String.ofList_toList]

/-- What is in front of a position between two characters. -/
theorem before_append (cs ds : List Char) : before (byteLength cs) (cs ++ ds) = cs := by
  induction cs with
  | nil => cases ds <;> rfl
  | cons c cs ih =>
      have hpos : 0 < c.utf8Size := c.utf8Size_pos
      have hrest : byteLength (c :: cs) - c.utf8Size = byteLength cs := by
        show c.utf8Size + byteLength cs - c.utf8Size = byteLength cs
        omega
      cases hlength : byteLength (c :: cs) with
      | zero =>
          exfalso
          have hsum : c.utf8Size + byteLength cs = 0 := hlength
          omega
      | succ n =>
          show c :: before (n + 1 - c.utf8Size) (cs ++ ds) = c :: cs
          rw [← hlength, hrest, ih]

end Text

namespace Debugger

/-! ### The word at the cursor -/

/-- The line up to the word at the cursor, this word, and what follows the cursor. -/
structure Cut (line : String) (pos : Nat) (head word rest : String) : Prop where
  line_eq : line = head ++ word ++ rest
  pos_eq : pos = (head ++ word).utf8ByteSize
  /-- There is no space in the word, -/
  noSpace : ' ' ∉ word.toList
  /-- and one in front of it, unless it begins the line. -/
  boundary : head = "" ∨ ∃ init, head = init ++ " "

variable {symbols : List String} {line head word rest : String} {pos : Nat}

theorem lastWord_append {cs ds : List Char} (hno : ' ' ∉ ds)
    (hcs : cs = [] ∨ ∃ init, cs = init ++ [' ']) : lastWord (cs ++ ds) = ds := by
  have hkept : ∀ c ∈ ds.reverse, (c != ' ') = true := by
    intro c hc
    rw [bne_iff_ne]
    rintro rfl
    exact hno (List.mem_reverse.mp hc)
  have hstop : cs.reverse.takeWhile (· != ' ') = [] := by
    rcases hcs with rfl | ⟨init, rfl⟩
    · rfl
    · simp
  rw [lastWord, List.reverse_append, List.takeWhile_append_of_pos hkept, hstop, List.append_nil,
    List.reverse_reverse]

/-- Wherever the cursor stands between two characters there is a word at it, be it an empty one. -/
theorem exists_cut (hpos : (⟨pos⟩ : String.Pos.Raw).IsValid line) :
    ∃ head word rest, Cut line pos head word rest := by
  obtain ⟨front, rest, rfl, hfront⟩ := String.Pos.Raw.isValid_iff_exists_append.mp hpos
  obtain rfl : pos = front.utf8ByteSize := congrArg String.Pos.Raw.byteIdx hfront
  have hsplit : front.toList = (front.toList.reverse.dropWhile (· != ' ')).reverse
      ++ lastWord front.toList := by
    rw [lastWord, ← List.reverse_append, List.takeWhile_append_dropWhile, List.reverse_reverse]
  have hcut : front = String.ofList (front.toList.reverse.dropWhile (· != ' ')).reverse
      ++ String.ofList (lastWord front.toList) := by
    apply String.toList_injective
    rw [String.toList_append, String.toList_ofList, String.toList_ofList]
    exact hsplit
  refine ⟨_, _, rest, ⟨by rw [← hcut], by rw [← hcut], ?_, ?_⟩⟩
  · intro hmem
    rw [String.toList_ofList, lastWord, List.mem_reverse] at hmem
    simpa using List.mem_takeWhile_imp hmem
  · cases hdrop : front.toList.reverse.dropWhile (· != ' ') with
    | nil => exact Or.inl rfl
    | cons c tail =>
        have hc : c = ' ' := by
          have hhead := List.head?_dropWhile_not (· != ' ') front.toList.reverse
          rw [hdrop] at hhead
          simpa using hhead
        refine Or.inr ⟨String.ofList tail.reverse, ?_⟩
        apply String.toList_injective
        simp [hc]

/-- What completing answers: where the word starts, and all that it can be the beginning of. -/
theorem Cut.complete_eq (h : Cut line pos head word rest) (symbols : List String) :
    complete symbols line pos = (head.utf8ByteSize,
      (if head = "" then Command.letters.map Char.toString else symbols).filter
        (·.startsWith word)) := by
  obtain ⟨rfl, rfl, hno, hboundary⟩ := h
  have hbefore : Text.before (head ++ word).utf8ByteSize (head ++ word ++ rest).toList
      = head.toList ++ word.toList := by
    rw [String.toList_append, ← Text.byteLength_toList, Text.before_append, String.toList_append]
  have hword : lastWord (head.toList ++ word.toList) = word.toList := by
    refine lastWord_append hno ?_
    rcases hboundary with rfl | ⟨init, rfl⟩
    · exact Or.inl rfl
    · exact Or.inr ⟨init.toList, String.toList_append⟩
  have hstart : byteLength (head.toList ++ word.toList) - byteLength word.toList
      = head.utf8ByteSize := by
    rw [Text.byteLength_append, Text.byteLength_toList head]
    omega
  have hfilter : ∀ s : String, word.toList.isPrefixOf s.toList = s.startsWith word := by
    intro s
    rw [Bool.eq_iff_iff, List.isPrefixOf_iff_prefix, String.startsWith_string_iff]
  simp only [complete, hbefore, hword, hstart, hfilter]
  by_cases hhead : head = ""
  · rw [if_pos hhead, if_pos (String.utf8ByteSize_eq_zero_iff.mpr hhead)]
  · rw [if_neg hhead, if_neg (fun hzero => hhead (String.utf8ByteSize_eq_zero_iff.mp hzero))]

/-! ### Completing the argument of a command -/

namespace Command

/-- The letters of the commands that take a name, with the command for each name. -/
def naming : List (Char × (String → Command)) :=
  [('b', fun name => .breakpoint (some name)), ('m', fun name => .memory (some name))]

variable {letter : Char} {command : String → Command}

theorem letter_of_naming (h : (letter, command) ∈ naming) : letter ∈ letters := by
  have hletter : letter ∈ naming.map Prod.fst := List.mem_map.mpr ⟨_, h, rfl⟩
  have hall : (naming.map Prod.fst).all (letters.contains ·) = true := by decide
  exact List.contains_iff_mem.mp (List.all_eq_true.mp hall letter hletter)

theorem build_naming (h : (letter, command) ∈ naming) (name : String) :
    build letter (some name) = .ok (command name) := by
  rcases List.mem_cons.mp h with heq | hrest
  · cases heq
    rfl
  · cases List.mem_singleton.mp hrest
    rfl

/-- The command with a name is read from its letter, spaces and the name. -/
theorem read_naming (h : (letter, command) ∈ naming) {gap name : String}
    (hgap : ∀ c ∈ gap.toList, c = ' ') (hname : IsWord name.toList) :
    read (letter.toString ++ gap ++ name) = .ok (command name) := by
  have hform : Form (letter.toString ++ gap ++ name) letter (some name) :=
    .before (letter_of_naming h) (fun c hc => Or.inl (hgap c hc)) hname
  rw [read_of_form hform, build_naming h]

end Command

/-- The word at the cursor is the argument of such a command, as far as it has been typed. -/
theorem cut_of_argument {letter : Char} {gap : String} (hne : gap ≠ "")
    (hgap : ∀ c ∈ gap.toList, c = ' ') (hword : ∀ c ∈ word.toList, isWordChar c = true) :
    Cut (letter.toString ++ gap ++ word ++ rest) (letter.toString ++ gap ++ word).utf8ByteSize
      (letter.toString ++ gap) word rest where
  line_eq := rfl
  pos_eq := rfl
  noSpace := by
    intro hmem
    cases hword ' ' hmem
  boundary := by
    right
    rcases gap.toList.eq_nil_or_concat with hnil | ⟨init, c, hlast⟩
    · exact absurd (String.toList_injective hnil) hne
    · have hc : c = ' ' := hgap c (by rw [hlast]; simp)
      refine ⟨letter.toString ++ String.ofList init, ?_⟩
      apply String.toList_injective
      simp [hlast, hc]

/-- How completing a line and reading it go together. -/
structure Completes (symbols : List String) : Prop where
  /-- Wherever the cursor stands between two characters, the word starts between two characters
  in front of it, -/
  start : ∀ line pos, (⟨pos⟩ : String.Pos.Raw).IsValid line →
    (complete symbols line pos).1 ≤ pos ∧
    (⟨(complete symbols line pos).1⟩ : String.Pos.Raw).IsValid line
  /-- and has no space in it, and one in front of it if it does not begin the line.  The candidates
  are the letters of commands or the symbols that begin with it. -/
  word : ∀ line pos, (⟨pos⟩ : String.Pos.Raw).IsValid line → ∃ head word rest,
    line = head ++ word ++ rest ∧ head.utf8ByteSize = (complete symbols line pos).1 ∧
    (head ++ word).utf8ByteSize = pos ∧ ' ' ∉ word.toList ∧
    (head = "" ∨ ∃ init, head = init ++ " ") ∧
    (complete symbols line pos).2 = (if head = "" then Command.letters.map Char.toString
      else symbols).filter (·.startsWith word) ∧
    ∀ candidate ∈ (complete symbols line pos).2, ∃ tail, candidate = word ++ tail
  /-- In a command that takes a name, the candidates are the symbols that begin with the word,
  and with any of them in the place of the word and of what follows, the line is read as this
  command with that name. -/
  argument : (∀ s ∈ symbols, IsWord s.toList) →
    ∀ letter command, (letter, command) ∈ Command.naming →
    ∀ gap word rest : String, gap ≠ "" → (∀ c ∈ gap.toList, c = ' ') →
    (∀ c ∈ word.toList, isWordChar c = true) →
    complete symbols (letter.toString ++ gap ++ word ++ rest)
        (letter.toString ++ gap ++ word).utf8ByteSize
      = ((letter.toString ++ gap).utf8ByteSize, symbols.filter (·.startsWith word)) ∧
    ∀ candidate ∈ symbols.filter (·.startsWith word),
      Command.read (letter.toString ++ gap ++ candidate) = .ok (command candidate)

/--
**Completing and reading agree.**  The word to be completed is found at every position of every
line, and a name that is taken from the candidates for it is read as the argument of the command.
-/
theorem complete_agrees_with_read (symbols : List String) : Completes symbols where
  start line pos hpos := by
    obtain ⟨head, word, rest, hcut⟩ := exists_cut hpos
    rw [hcut.complete_eq]
    refine ⟨?_, String.Pos.Raw.isValid_iff_exists_append.mpr ⟨head, word ++ rest, ?_, rfl⟩⟩
    · rw [hcut.pos_eq, String.utf8ByteSize_append]
      omega
    · rw [← String.append_assoc]
      exact hcut.line_eq
  word line pos hpos := by
    obtain ⟨head, word, rest, hcut⟩ := exists_cut hpos
    rw [hcut.complete_eq]
    refine ⟨head, word, rest, hcut.line_eq, rfl, hcut.pos_eq.symm, hcut.noSpace, hcut.boundary,
      rfl, ?_⟩
    intro candidate hcandidate
    have hstarts := (List.mem_filter.mp hcandidate).2
    obtain ⟨tail, htail⟩ := String.startsWith_string_iff.mp hstarts
    refine ⟨String.ofList tail, ?_⟩
    apply String.toList_injective
    rw [String.toList_append, String.toList_ofList, htail]
  argument hsymbols letter command hnaming gap word rest hne hgap hword := by
    constructor
    · have hhead : letter.toString ++ gap ≠ "" := by
        intro hnil
        have hlist := congrArg String.toList hnil
        simp [Char.toString] at hlist
      rw [(cut_of_argument hne hgap hword).complete_eq, if_neg hhead]
    · intro candidate hcandidate
      exact Command.read_naming hnaming hgap (hsymbols candidate (List.mem_filter.mp hcandidate).1)

/-- Names of letters with more than one byte; what follows the cursor is dropped. -/
theorem size_completed :
    complete ["größe", "gr", "größer", "größe"] "m  größX" 9
      = (3, ["größe", "größer", "größe"]) ∧
    Command.read "m  größer" = .ok (.memory (some "größer")) := by
  have hwords : ∀ s ∈ ["größe", "gr", "größer", "größe"], IsWord s.toList := by
    have hall : ["größe", "gr", "größer", "größe"].all
        (fun s => !s.toList.isEmpty && s.toList.all isWordChar) = true := by
      decide +kernel
    intro s hs
    have hboth := List.all_eq_true.mp hall s hs
    simp only [Bool.and_eq_true, Bool.not_eq_true', List.isEmpty_eq_false_iff,
      List.all_eq_true] at hboth
    exact ⟨hboth.1, hboth.2⟩
  have hspaces : ("  ".toList.all (· == ' ')) = true := rfl
  have hword : ("größ".toList.all isWordChar) = true := by decide +kernel
  obtain ⟨-, hread⟩ := (complete_agrees_with_read _).argument hwords 'm' _
    (List.mem_cons_of_mem _ List.mem_cons_self) "  " "größ" "X" (by decide)
    (fun c hc => beq_iff_eq.mp (List.all_eq_true.mp hspaces c hc)) (List.all_eq_true.mp hword)
  have hstarts : "größer".startsWith "größ" = true :=
    String.startsWith_string_iff.mpr ⟨['e', 'r'], rfl⟩
  exact ⟨by decide +kernel, hread "größer" (List.mem_filter.mpr ⟨by simp, hstarts⟩)⟩

end Debugger

end Mailroom
