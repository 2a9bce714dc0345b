/-
What a command spells.

The first word of a command must be the symbol of an opcode, in any mixture of capital and small
letters, and what follows it must be what the opcode asks for.  So there is one way to be an
instruction (`instruction_eq_ok`) and there are four ways not to be one (`instruction_eq_error`).

Case is a matter of ASCII alone here.  Other scripts have capital letters too, and a few of them
have ASCII letters for small forms, but no symbol contains any of these (`lowered_eq_symbol`).
-/
import Mailroom.Proofs.Assembly.Statement
import Mailroom.Proofs.Text.SmallLetter

namespace Mailroom

open Text (SameButCase Lowered Foreign)

/-! ### Symbols -/

namespace Opcode

variable {op : Opcode} {w w' : String}

theorem map_toLower_symbol (op : Opcode) : op.symbol.toList.map Char.toLower = op.symbol.toList := by
  have hall : (all.all fun op => op.symbol.toList.map Char.toLower == op.symbol.toList) = true := by
    decide +kernel
  exact beq_iff_eq.mp (List.all_eq_true.mp hall op (mem_all op))

theorem not_foreign_symbol (op : Opcode) : ∀ c ∈ op.symbol.toList, ¬ Foreign c := by
  have hall : (all.all fun op =>
      op.symbol.toList.all fun c => c.toNat < 128 && c != 'k') = true := by
    decide +kernel
  intro c hc hforeign
  have hchar := List.all_eq_true.mp (List.all_eq_true.mp hall op (mem_all op)) c hc
  simp only [Bool.and_eq_true, decide_eq_true_eq, bne_iff_ne, ne_eq] at hchar
  rcases hforeign with hhigh | rfl
  · omega
  · exact hchar.2 rfl

/-- Words that are equal but for their case are symbols of the same opcode. -/
theorem ofSymbol?_congr (h : SameButCase w w') : ofSymbol? w = ofSymbol? w' := by
  have hfolded : w.toList.map Char.toLower = w'.toList.map Char.toLower := h
  simp only [ofSymbol?, hfolded]

theorem ofSymbol?_eq_some : ofSymbol? w = some op ↔ SameButCase w op.symbol := by
  constructor
  · intro h
    have hfound := List.find?_some h
    have hsymbol : op.symbol.toList = w.toList.map Char.toLower := beq_iff_eq.mp hfound
    rw [SameButCase, map_toLower_symbol, hsymbol]
  · intro h
    rw [ofSymbol?_congr h, ofSymbol?_symbol]

theorem ofSymbol?_eq_none : ofSymbol? w = none ↔ ∀ op : Opcode, ¬ SameButCase w op.symbol := by
  rw [Option.eq_none_iff_forall_ne_some]
  exact forall_congr' fun op => not_congr ofSymbol?_eq_some

/-- **A word is a symbol in the small letters of all scripts only if it is one in ASCII.** -/
theorem lowered_eq_symbol {ds : List Char} (h : Lowered w.toList ds) :
    ds = op.symbol.toList ↔ SameButCase w op.symbol := by
  rw [SameButCase, map_toLower_symbol]
  exact Text.lowered_eq_iff (not_foreign_symbol op) h

end Opcode

namespace Assembly

/-! ### Operands -/

/-- The operand of the instruction is written like this. -/
inductive Operand : Option Argument → Instruction → Prop
  | noOp : Operand none .noOp
  | moveFromInbox : Operand none .moveFromInbox
  | moveToOutbox : Operand none .moveToOutbox
  | onTile (action : TileAction) (a : Argument) :
      Operand (some a) (.onTile action ⟨.ofString a.text, a.indirect⟩)
  | jump (condition : Condition) (text : String) :
      Operand (some ⟨text, false⟩) (.jump condition (.ofString text))

/-- The opcode does not go with what is written behind it. -/
inductive Mismatch : Opcode → Option Argument → FaultKind → Prop
  | unexpected {op : Opcode} (h : op.takesArgument = false) (a : Argument) :
      Mismatch op (some a) .unexpectedArgument
  | required {op : Opcode} (h : op.takesArgument = true) : Mismatch op none .argumentRequired
  /-- The number of a step cannot be taken from a tile. -/
  | bracketed (condition : Condition) (text : String) :
      Mismatch (.jump condition) (some ⟨text, true⟩) .syntaxError

variable {op : Opcode} {a : Option Argument} {i : Instruction} {kind : FaultKind} {w : String}

theorem build_eq_ok : build op a = .ok i ↔ i.opcode = op ∧ Operand a i := by
  constructor
  · intro h
    rcases a with _ | ⟨text, _ | _⟩ <;> cases op <;> cases h <;> exact ⟨rfl, by constructor⟩
  · rintro ⟨rfl, _ | _ | _ | _ | _⟩ <;> rfl

theorem build_eq_error : build op a = .error kind ↔ Mismatch op a kind := by
  constructor
  · intro h
    rcases a with _ | ⟨text, _ | _⟩ <;> cases op <;> cases h <;> constructor <;> rfl
  · rintro (⟨h, a⟩ | h | ⟨condition, text⟩)
    · cases op with
      | noOp | moveFromInbox | moveToOutbox => rfl
      | onTile _ | jump _ => cases h
    · cases op with
      | noOp | moveFromInbox | moveToOutbox => cases h
      | onTile _ | jump _ => rfl
    · rfl

/-! ### Commands -/

/-- What is wrong with a command. -/
inductive Refused (w : String) : Option Argument → FaultKind → Prop
  /-- There is no such opcode, and then it does not matter what follows. -/
  | unknown (h : ∀ op : Opcode, ¬ SameButCase w op.symbol) (a : Option Argument) :
      Refused w a .unknownInstruction
  | mismatch {op : Opcode} (h : SameButCase w op.symbol) {a : Option Argument} {kind : FaultKind}
      (ha : Mismatch op a kind) : Refused w a kind

theorem instruction_eq_ok :
    instruction w a = .ok i ↔ SameButCase w i.opcode.symbol ∧ Operand a i := by
  rw [← Opcode.ofSymbol?_eq_some, instruction]
  cases Opcode.ofSymbol? w with
  | none => simp
  | some op => simp only [build_eq_ok, Option.some.injEq, @eq_comm _ op]

theorem instruction_eq_error : instruction w a = .error kind ↔ Refused w a kind := by
  unfold instruction
  cases hop : Opcode.ofSymbol? w with
  | none =>
      have hunknown := Opcode.ofSymbol?_eq_none.mp hop
      constructor
      · rintro ⟨⟩
        exact .unknown hunknown a
      · rintro (_ | ⟨hsymbol, _⟩)
        · rfl
        · exact absurd hsymbol (hunknown _)
  | some op =>
      have hsymbol := Opcode.ofSymbol?_eq_some.mp hop
      simp only [build_eq_error]
      constructor
      · exact .mismatch hsymbol
      · rintro (⟨hunknown, _⟩ | ⟨hsymbol', ha⟩)
        · exact absurd hsymbol (hunknown op)
        · rw [Opcode.ofSymbol?_eq_some.mpr hsymbol'] at hop
          cases hop
          exact ha

end Assembly

end Mailroom
