/-
Instructions are read back from their text.

Not every operand has a text that reads as the operand.  A tile labelled `7` is printed
like tile number 7, and a label with a space in it is not even an operand.  Operands that
were read from a line are not like this: their text is a word, and it reads as the same
operand.  `Legible` says so, and it is all that an instruction needs to be read back.
-/
import Mailroom.Assembly
import Mailroom.Proofs.Assembly.Line
import Mailroom.Proofs.Reading

namespace Mailroom

open Text (IsWord)

/-! ### Operands -/

/-- The text of the tile reads as the same tile. -/
structure TileRef.Legible (k : TileRef) : Prop where
  word : IsWord k.text.toList
  reads : TileRef.ofString k.text = k

/-- The text of the destination reads as the same destination. -/
structure Destination.Legible (d : Destination) : Prop where
  word : IsWord d.text.toList
  reads : Destination.ofString d.text = d

theorem TileRef.legible_ofString {s : String} (h : IsWord s.toList) :
    (TileRef.ofString s).Legible where
  word := by
    unfold TileRef.ofString
    split
    · exact Numeral.isWord_ofNat _
    · exact h
  reads := TileRef.ofString_text s

theorem Destination.legible_ofString {s : String} (h : IsWord s.toList) :
    (Destination.ofString s).Legible where
  word := by
    unfold Destination.ofString
    split
    · exact Numeral.isWord_ofStep _
    · exact h
  reads := Destination.ofString_text s

/-! ### Opcodes -/

namespace Opcode

theorem mem_all (op : Opcode) : op ∈ all := by
  cases op with
  | noOp | moveFromInbox | moveToOutbox => decide
  | onTile action => cases action <;> decide
  | jump condition => cases condition <;> decide

/-- The symbol of an opcode is read as that opcode. -/
theorem ofSymbol?_symbol (op : Opcode) : ofSymbol? op.symbol = some op := by
  have hall : ∀ op ∈ all, ofSymbol? op.symbol = some op := by decide
  exact hall op (mem_all op)

theorem isWord_symbol (op : Opcode) : IsWord op.symbol.toList := by
  have hall : (all.all fun op =>
      !op.symbol.toList.isEmpty && op.symbol.toList.all Text.isWordChar) = true := by
    decide
  have hop := List.all_eq_true.mp hall op (mem_all op)
  simp only [Bool.and_eq_true, Bool.not_eq_true', List.isEmpty_eq_false_iff,
    List.all_eq_true] at hop
  exact ⟨hop.1, hop.2⟩

end Opcode

/-! ### Instructions -/

namespace Instruction

def Legible : Instruction → Prop
  | onTile _ t => t.key.Legible
  | jump _ d => d.Legible
  | noOp | moveFromInbox | moveToOutbox => True

/-- The operand as it is written on a line. -/
def argument? : Instruction → Option Assembly.Argument
  | onTile _ t => some ⟨t.key.text, t.indirect⟩
  | jump _ d => some ⟨d.text, false⟩
  | noOp | moveFromInbox | moveToOutbox => none

variable {i : Instruction} {a : Assembly.Argument}

theorem isWord_of_legible (h : i.Legible) (ha : i.argument? = some a) :
    IsWord a.text.toList := by
  cases i with
  | onTile action t =>
      cases ha
      exact TileRef.Legible.word h
  | jump condition d =>
      cases ha
      exact Destination.Legible.word h
  | noOp | moveFromInbox | moveToOutbox => cases ha

theorem text_of_argument (ha : i.argument? = some a) :
    i.text.toList = i.opcode.symbol.toList ++ ([' '] ++ a.chars) := by
  cases i with
  | onTile action t =>
      cases ha
      obtain ⟨key, indirect⟩ := t
      cases indirect <;> simp [text, operandText?, Tile.text, Assembly.Argument.chars]
  | jump condition d =>
      cases ha
      simp [text, operandText?, Assembly.Argument.chars]
  | noOp | moveFromInbox | moveToOutbox => cases ha

theorem text_of_no_argument (ha : i.argument? = none) : i.text = i.opcode.symbol := by
  cases i with
  | onTile action t => cases ha
  | jump condition d => cases ha
  | noOp | moveFromInbox | moveToOutbox => rfl

end Instruction

namespace Assembly

theorem build_argument {i : Instruction} (h : i.Legible) :
    build i.opcode i.argument? = .ok i := by
  cases i with
  | onTile action t => simp [build, Instruction.opcode, Instruction.argument?,
      TileRef.Legible.reads h]
  | jump condition d => simp [build, Instruction.opcode, Instruction.argument?,
      Destination.Legible.reads h]
  | noOp | moveFromInbox | moveToOutbox => rfl

/-- An instruction that was built from a word has a legible operand. -/
theorem legible_of_build {op : Opcode} {argument : Option Argument} {i : Instruction}
    (h : build op argument = .ok i) (hword : ∀ a ∈ argument, IsWord a.text.toList) :
    i.Legible := by
  cases argument with
  | none => cases op <;> cases h <;> trivial
  | some a =>
      have ha := hword a rfl
      cases op with
      | onTile action =>
          cases h
          exact TileRef.legible_ofString ha
      | jump condition =>
          simp only [build] at h
          split at h
          · cases h
          · cases h
            exact Destination.legible_ofString ha
      | noOp | moveFromInbox | moveToOutbox => cases h

/-! ### Statements -/

/-- Labels are words and instructions have legible operands. -/
def Statement.Legible : Statement → Prop
  | .label name => IsWord name.toList
  | .instruction i => i.Legible

/-- The text of a statement, on a line of its own. -/
def Statement.text : Statement → String
  | .label name => name ++ ":"
  | .instruction i => i.text

/-- Whatever a line contributes is legible. -/
theorem legible_of_statement {cs : List Char} {s : Statement}
    (h : statement? cs = .ok (some s)) : s.Legible := by
  unfold statement? at h
  split at h
  · cases h
  · split at h
    · cases h
    · next hread =>
      cases h
      exact (Line.read?_eq_label.mp hread).1
    · next symbol argument hread =>
      cases hi : instruction symbol argument with
      | error kind => rw [hi] at h; cases h
      | ok i =>
          rw [hi] at h
          cases h
          unfold instruction at hi
          split at hi
          · refine legible_of_build hi ?_
            intro a ha
            cases ha
            exact (Line.read?_eq_command.mp hread).2.1
          · cases hi

theorem not_isEmpty_of_read {cs : List Char} {line : Line} (h : Line.read? cs = some line) :
    ¬ cs.isEmpty = true := by
  intro hempty
  rw [List.isEmpty_iff.mp hempty] at h
  cases h

/-- **A legible statement is read back from its text.** -/
theorem statement?_text {s : Statement} (h : s.Legible) :
    statement? s.text.toList = .ok (some s) := by
  cases s with
  | label name =>
      have hread : Line.read? (name ++ ":").toList = some (.label name) :=
        Line.read?_eq_label.mpr ⟨h, String.toList_append⟩
      rw [Statement.text, statement?, if_neg (not_isEmpty_of_read hread), hread]
  | instruction i =>
      have hread : Line.read? i.text.toList = some (.command i.opcode.symbol i.argument?) := by
        cases ha : i.argument? with
        | none =>
            rw [Instruction.text_of_no_argument ha]
            exact Line.read?_eq_symbol.mpr ⟨i.opcode.isWord_symbol, rfl⟩
        | some a =>
            refine Line.read?_eq_command.mpr ⟨i.opcode.isWord_symbol,
              Instruction.isWord_of_legible h ha, [' '], ⟨by simp, by simp [Text.isGap]⟩, ?_⟩
            exact Instruction.text_of_argument ha
      have hinstruction : instruction i.opcode.symbol i.argument? = .ok i := by
        simp only [instruction, Opcode.ofSymbol?_symbol]
        exact build_argument h
      rw [Statement.text, statement?, if_neg (not_isEmpty_of_read hread), hread]
      simp only [hinstruction]
      rfl

/-! ### The text on a line -/

/-- The characters of statements that are not characters of words. -/
def signs : List Char :=
  [' ', '[', ']', ':']

/-- A text that stands on a line without being mistaken for anything else. -/
structure Tidy (cs : List Char) : Prop where
  starts : ∃ w rest, IsWord w ∧ cs = w ++ rest
  chars : ∀ c ∈ cs, Text.isWordChar c = true ∨ c ∈ signs
  ends : ∀ c ∈ cs.getLast?, Text.isBlank c = false

namespace Tidy

variable {cs : List Char}

theorem not_mem (h : Tidy cs) {c : Char} (hword : Text.isWordChar c = false)
    (hsign : c ∉ signs) : c ∉ cs := by
  intro hmem
  rcases h.chars c hmem with hc | hc
  · rw [hword] at hc
    cases hc
  · exact hsign hc

theorem ne_nil (h : Tidy cs) : cs ≠ [] := by
  obtain ⟨w, rest, hw, rfl⟩ := h.starts
  exact List.append_ne_nil_of_left_ne_nil hw.nonempty rest

/-- There is neither a comment nor a blank to remove. -/
theorem clean_eq (h : Tidy cs) : Line.clean cs = cs := by
  have hhead : ∀ c ∈ cs.head?, Text.isBlank c = false := by
    obtain ⟨w, rest, hw, rfl⟩ := h.starts
    exact hw.head_not_blank rest
  have hcomment : cs.takeWhile (· != '#') = cs := by
    have hall : ∀ c ∈ cs, (c != '#') = true := by
      intro c hc
      have hne : c ≠ '#' := by
        rintro rfl
        exact h.not_mem (by decide) (by decide) hc
      simpa using hne
    have htake : (cs ++ []).takeWhile (· != '#') = cs ++ [].takeWhile (· != '#') :=
      List.takeWhile_append_of_pos hall
    simpa using htake
  rw [Line.clean, hcomment]
  exact Text.trim_eq_self hhead h.ends

end Tidy

theorem mem_chars {a : Argument} (h : IsWord a.text.toList) :
    ∀ c ∈ a.chars, Text.isWordChar c = true ∨ c ∈ signs := by
  intro c hc
  unfold Argument.chars at hc
  split at hc
  · rcases List.mem_append.mp hc with hc | hc
    · rcases List.mem_cons.mp hc with rfl | hc
      · exact Or.inr (by decide)
      · exact Or.inl (h.chars c hc)
    · rw [List.mem_singleton.mp hc]
      exact Or.inr (by decide)
  · exact Or.inl (h.chars c hc)

theorem last_chars {a : Argument} (h : IsWord a.text.toList) (front : List Char) :
    ∀ c ∈ (front ++ a.chars).getLast?, Text.isBlank c = false := by
  unfold Argument.chars
  split
  · intro c hc
    rw [← List.append_assoc, List.getLast?_concat] at hc
    cases hc
    decide
  · exact h.last_not_blank front

/-- The text of a legible statement is tidy. -/
theorem tidy_text {s : Statement} (h : s.Legible) : Tidy s.text.toList := by
  cases s with
  | label name =>
      have htext : (Statement.label name).text.toList = name.toList ++ [':'] :=
        String.toList_append
      rw [htext]
      refine ⟨⟨_, _, h, rfl⟩, ?_, ?_⟩
      · intro c hc
        rcases List.mem_append.mp hc with hc | hc
        · exact Or.inl (IsWord.chars h c hc)
        · rw [List.mem_singleton.mp hc]
          exact Or.inr (by decide)
      · intro c hc
        rw [List.getLast?_concat] at hc
        cases hc
        decide
  | instruction i =>
      have hsymbol := i.opcode.isWord_symbol
      rw [Statement.text]
      cases ha : i.argument? with
      | none =>
          rw [Instruction.text_of_no_argument ha]
          refine ⟨⟨_, [], hsymbol, (List.append_nil _).symm⟩, ?_, ?_⟩
          · intro c hc
            exact Or.inl (hsymbol.chars c hc)
          · exact hsymbol.last_not_blank []
      | some a =>
          have hword := Instruction.isWord_of_legible h ha
          rw [Instruction.text_of_argument ha]
          refine ⟨⟨_, _, hsymbol, rfl⟩, ?_, ?_⟩
          · intro c hc
            rcases List.mem_append.mp hc with hc | hc
            · exact Or.inl (hsymbol.chars c hc)
            · rcases List.mem_append.mp hc with hc | hc
              · rw [List.mem_singleton.mp hc]
                exact Or.inr (by decide)
              · exact mem_chars hword c hc
          · rw [← List.append_assoc]
            exact last_chars hword _

end Assembly

end Mailroom
