/-
A label names the step it is declared at.

A text is taken in line by line.  A line that declares a label gives it the number of the
instructions that stand above, whatever it named before, and later lines change that only if
they declare it again.  So what a label names in the end can be read off the text: it is the
number of instructions above its last declaration (`get?_of_declared`).  In the same way the
step of an instruction is the number of instructions above its own line
(`getElem?_of_holds`).

Jumps are another matter.  An operand that is a numeral is the number of a step, and no label
is looked up for it.  A label may be called `1` all the same, and then a jump to it cannot be
written (`numeral_label_not_reached`).  With every other label a jump does land where the
label was declared last (`jump_lands_on_label`).
-/
import Mailroom.Proofs.Assembly.Joining
import Mailroom.Proofs.Cpu.Tick

namespace Mailroom

namespace Assembly

/-! ### Reading a text -/

/-- The line contributes this to the program. -/
def Holds (raw : List Char) (s : Statement) : Prop :=
  statement? (Line.clean raw) = .ok (some s)

instance : DecidableRel Holds := fun raw s =>
  inferInstanceAs (Decidable (statement? (Line.clean raw) = .ok (some s)))

/-- Does the line hold an instruction? -/
def isInstruction (raw : List Char) : Bool :=
  match statement? (Line.clean raw) with
  | .ok (some (.instruction _)) => true
  | _ => false

/-- The number of instructions on some lines. -/
def instructionCount (lines : List (List Char)) : Nat :=
  lines.countP isInstruction

/-- The last declaration of the label has `s` instructions above it. -/
def DeclaredAt (source name : String) (s : Nat) : Prop :=
  ∃ before raw after, Text.lines '\n' source.toList = before ++ raw :: after ∧
    Holds raw (.label name) ∧ (∀ raw' ∈ after, ¬ Holds raw' (.label name)) ∧
    instructionCount before = s

/-- The instruction of step `p` is a jump, and its operand is written as this word. -/
def JumpsAt (source : String) (p : Nat) (condition : Condition) (word : String) : Prop :=
  ∃ before raw after symbol, Text.lines '\n' source.toList = before ++ raw :: after ∧
    Line.read? (Line.clean raw) = some (.command symbol (some ⟨word, false⟩)) ∧
    Opcode.ofSymbol? symbol = some (.jump condition) ∧ instructionCount before = p

variable {raw : List Char} {lines before after : List (List Char)} {d d' : Draft} {i : Instruction}
  {name source : String} {number s p : Nat} {condition : Condition} {a : Assembly}

/-- A jump that is written on a line is what the line holds. -/
theorem holds_of_jump {symbol word : String}
    (hread : Line.read? (Line.clean raw) = some (.command symbol (some ⟨word, false⟩)))
    (hop : Opcode.ofSymbol? symbol = some (.jump condition)) :
    Holds raw (.instruction (.jump condition (.ofString word))) := by
  rw [Holds, statement?, if_neg (not_isEmpty_of_read hread), hread]
  simp [instruction, hop, build, Except.map]

/-! ### What lines add to a draft -/

/-- What the draft `d'` is if these lines have been taken into `d`. -/
structure Grown (lines : List (List Char)) (d d' : Draft) : Prop where
  /-- Each line with an instruction adds one. -/
  size : d'.program.size = d.program.size + instructionCount lines
  /-- Instructions that were there stay at their steps. -/
  kept : ∀ p < d.program.size, d'.program[p]? = d.program[p]?
  /-- Labels that are not declared again stay where they are. -/
  labels : ∀ name, (∀ raw ∈ lines, ¬ Holds raw (.label name)) →
    d'.jumps.get? name = d.jumps.get? name

theorem grown_nil (d : Draft) : Grown [] d d where
  size := rfl
  kept _ _ := rfl
  labels _ _ := rfl

theorem grown_take {s : Option Statement} (hs : statement? (Line.clean raw) = .ok s)
    (d : Draft) (number : Nat) : Grown [raw] d (d.take number s) := by
  have hcount : ∀ b, isInstruction raw = b → instructionCount [raw] = if b then 1 else 0 := by
    rintro b rfl
    rw [instructionCount, List.countP_singleton]
  cases s with
  | none =>
      have hno : isInstruction raw = false := by simp only [isInstruction, hs]
      exact ⟨by rw [hcount _ hno]; rfl, fun _ _ => rfl, fun _ _ => rfl⟩
  | some s =>
      cases s with
      | label declared =>
          have hno : isInstruction raw = false := by simp only [isInstruction, hs]
          refine ⟨?_, ?_, ?_⟩
          · rw [hcount _ hno, Draft.take, Draft.declare_program]
            rfl
          · intro p _
            rw [Draft.take, Draft.declare_program]
          · intro name hname
            have hne : declared ≠ name := by
              rintro rfl
              exact hname raw (List.mem_singleton.mpr rfl) hs
            rw [Draft.take, Draft.declare_jumps, JumpTable.get?_insert, if_neg hne]
      | instruction i =>
          have hyes : isInstruction raw = true := by simp only [isInstruction, hs]
          refine ⟨?_, ?_, fun _ _ => rfl⟩
          · rw [hcount _ hyes]
            exact Array.size_push i
          · intro p hp
            show (d.program.push i)[p]? = _
            rw [Array.getElem?_push_lt hp, Array.getElem?_eq_getElem hp]

theorem Grown.append {d₁ : Draft} (h : Grown before d d₁) (h' : Grown after d₁ d') :
    Grown (before ++ after) d d' where
  size := by
    rw [h'.size, h.size, instructionCount, instructionCount, instructionCount,
      List.countP_append, Nat.add_assoc]
  kept := by
    intro p hp
    have hsize := h.size
    rw [h'.kept p (by omega), h.kept p hp]
  labels := by
    intro name hname
    obtain ⟨hbefore, hafter⟩ := List.forall_mem_append.mp hname
    rw [h'.labels name hafter, h.labels name hbefore]

theorem grown_of_readLines :
    ∀ {number : Nat} {d : Draft}, (readLines number lines).run d = .ok () d' →
      Grown lines d d' := by
  induction lines with
  | nil =>
      intro number d hrun
      cases hrun
      exact grown_nil _
  | cons raw rest ih =>
      intro number d hrun
      obtain ⟨s, hs, hrest⟩ := readLines_cons_eq_ok.mp hrun
      exact (grown_take hs d number).append (ih hrest)

/-- A line of a text that assembles: the draft of the lines above it, and what the lines below
make of the draft. -/
theorem grown_around {s : Statement} (ha : assemble source = .ok a)
    (hlines : Text.lines '\n' source.toList = before ++ raw :: after) (hraw : Holds raw s) :
    ∃ d d' number, Grown before {} d ∧ Grown after (d.take number (some s)) d' ∧
      a = ⟨d'.program, d'.jumps⟩ := by
  obtain ⟨d', hdraft, rfl⟩ := assemble_eq_ok.mp ha
  rw [draft, hlines] at hdraft
  obtain ⟨d, hbefore, hdraft⟩ := readLines_append_eq_ok.mp hdraft
  obtain ⟨s', hs', hafter⟩ := readLines_cons_eq_ok.mp hdraft
  obtain rfl : s' = some s := Except.ok.inj (hs'.symm.trans hraw)
  exact ⟨d, d', _, grown_of_readLines hbefore, grown_of_readLines hafter, rfl⟩

/-! ### What a text says about steps -/

/-- **A label names the step it was declared at last.** -/
theorem get?_of_declared (ha : assemble source = .ok a) (h : DeclaredAt source name s) :
    a.jumps.get? name = some s := by
  obtain ⟨before, raw, after, hlines, hraw, hlast, rfl⟩ := h
  obtain ⟨d, d', number, hbefore, hafter, rfl⟩ := grown_around ha hlines hraw
  have hsize : d.program.size = instructionCount before := by
    rw [hbefore.size]
    exact Nat.zero_add _
  show d'.jumps.get? name = _
  rw [hafter.labels name hlast, Draft.take, Draft.declare_jumps, JumpTable.get?_insert,
    if_pos rfl, hsize]

/-- The step of an instruction is the number of instructions above it. -/
theorem getElem?_of_holds (ha : assemble source = .ok a)
    (hlines : Text.lines '\n' source.toList = before ++ raw :: after)
    (hraw : Holds raw (.instruction i)) : a.program[instructionCount before]? = some i := by
  obtain ⟨d, d', number, hbefore, hafter, rfl⟩ := grown_around ha hlines hraw
  have hsize : d.program.size = instructionCount before := by
    rw [hbefore.size]
    exact Nat.zero_add _
  have htaken : (d.take number (some (.instruction i))).program = d.program.push i := rfl
  have hlt : d.program.size < (d.take number (some (.instruction i))).program.size := by
    rw [htaken, Array.size_push]
    exact Nat.lt_succ_self _
  show d'.program[instructionCount before]? = some i
  rw [← hsize, hafter.kept _ hlt, htaken, Array.getElem?_push_size]

end Assembly

/-! ### Jumps -/

namespace Cpu

variable {program : Program} {jumps : JumpTable} {cpu : Cpu} {condition : Condition}
  {destination : Destination}

theorem taken_of_isTaken (h : isTaken condition cpu = .ok true cpu) :
    cpu.taken condition = .ok true := by
  rw [isTaken_settle] at h
  cases htaken : cpu.taken condition with
  | error e =>
      rw [htaken] at h
      cases h
  | ok b =>
      rw [htaken] at h
      cases h
      rfl

/-- A jump that is taken goes where its destination is, or fails. -/
theorem tick_of_taken {pc : Nat}
    (hnext : cpu.next? program = some (pc, .jump condition destination))
    (htaken : isTaken condition cpu = .ok true cpu) :
    tick program jumps cpu = match destination.resolve jumps program.size with
      | .ok s => .ok () { cpu with pc := some s, steps := cpu.steps + 1 }
      | .error e => .error e cpu := by
  have heffect : cpu.effect (.jump condition destination) pc program.size jumps
      = (destination.resolve jumps program.size).map (·, cpu) := by
    simp only [effect, taken_of_isTaken htaken]
    cases destination.resolve jumps program.size <;> rfl
  rw [tick_settle, advance, hnext]
  simp only [heffect]
  cases destination.resolve jumps program.size <;> rfl

end Cpu

/-! ### Where a jump to a label lands -/

/-- The machine is about to take a jump whose operand is written like a label of step `s`. -/
structure Assembly.Leaps (source : String) (a : Assembly) (name : String) (s : Nat) (cpu : Cpu) :
    Prop where
  declared : DeclaredAt source name s
  inside : s < a.program.size
  running : cpu.halted = false
  jump : ∃ p condition, JumpsAt source p condition name ∧ cpu.pc = some p ∧
    Cpu.isTaken condition cpu = .ok true cpu

/-- Every jump to a label lands on the step that the label was declared at last. -/
def Assembly.LabelsLand (source : String) (a : Assembly) : Prop :=
  ∀ name s cpu, Leaps source a name s cpu →
    ∃ after, Cpu.tick a.program a.jumps cpu = .ok () after ∧ after.pc = some s

variable {source name : String} {a : Assembly} {s : Nat} {cpu : Cpu}

/-- The instruction that comes next is the jump. -/
theorem Assembly.Leaps.tick (ha : assemble source = .ok a) (h : Leaps source a name s cpu) :
    Cpu.tick a.program a.jumps cpu
      = match (Destination.ofString name).resolve a.jumps a.program.size with
        | .ok s => .ok () { cpu with pc := some s, steps := cpu.steps + 1 }
        | .error e => .error e cpu := by
  obtain ⟨p, condition, hjumps, hpc, htaken⟩ := h.jump
  obtain ⟨before, raw, after, symbol, hlines, hread, hop, rfl⟩ := hjumps
  have hi := getElem?_of_holds ha hlines (holds_of_jump hread hop)
  exact Cpu.tick_of_taken (Cpu.next?_eq_some.mpr ⟨h.running, hpc, hi⟩) htaken

/--
**A jump to a label lands on the step that the label was declared at last, unless the label is
a numeral.**  A numeral is the number of the step to go to, whatever the label names, and such a
jump fails if the program has no such step.
-/
theorem jump_lands_on_label (ha : assemble source = .ok a)
    (h : Assembly.Leaps source a name s cpu) :
    (Numeral.unsigned? name = none →
      Cpu.tick a.program a.jumps cpu
        = .ok () { cpu with pc := some s, steps := cpu.steps + 1 }) ∧
    ∀ n, Numeral.unsigned? name = some n →
      Cpu.tick a.program a.jumps cpu
        = if n < a.program.size then .ok () { cpu with pc := some n, steps := cpu.steps + 1 }
          else .error (.noSuchJumpDestination (.step n)) cpu := by
  rw [h.tick ha]
  refine ⟨?_, ?_⟩
  · intro hname
    have hnamed : (Destination.ofString name).named? a.jumps = some s := by
      simp only [Destination.ofString, hname, Destination.named?]
      exact Assembly.get?_of_declared ha h.declared
    rw [Destination.resolve_eq_ok.mpr ⟨hnamed, h.inside⟩]
  · intro n hname
    simp only [Destination.ofString, hname, Destination.resolve]
    by_cases hlt : n < a.program.size
    · simp only [if_pos hlt]
    · simp only [if_neg hlt]

/-- The label `a` is moved from step 0 to step 1, and names that step together with `b`. -/
def moved : String :=
  "a:\nno_op\na:\nb:\nadd 0\njump_to a"

/-- What the text is assembled to. -/
def movedAssembly : Assembly where
  program := #[.noOp, .onTile .add ⟨.index 0, false⟩, .jump .always (.label "a")]
  jumps := ⟨[("a", 1), ("b", 1)]⟩

/-- At the end of the text the machine goes back to step 1, and not to step 0. -/
theorem moved_lands :
    Cpu.tick movedAssembly.program movedAssembly.jumps { pc := some 2, inbox := [.int 7] }
      = .ok () { pc := some 1, inbox := [.int 7], steps := 1 } := by
  have hassemble : assemble moved = .ok movedAssembly := by
    decide +kernel
  have hdeclared : Assembly.DeclaredAt moved "a" 1 := by
    refine ⟨["a:".toList, "no_op".toList], "a:".toList,
      ["b:".toList, "add 0".toList, "jump_to a".toList], rfl, by decide +kernel, ?_,
      by decide +kernel⟩
    intro raw hraw
    simp only [List.mem_cons, List.not_mem_nil, or_false] at hraw
    rcases hraw with rfl | rfl | rfl <;> decide +kernel
  have hjump : Assembly.JumpsAt moved 2 .always "a" :=
    ⟨(Text.lines '\n' moved.toList).take 5, "jump_to a".toList, [], "jump_to", rfl,
      by decide +kernel, rfl, by decide +kernel⟩
  exact (jump_lands_on_label hassemble
    ⟨hdeclared, by decide, rfl, 2, .always, hjump, rfl, rfl⟩).1 (by decide +kernel)

/-- A label that is a numeral, declared at step 2. -/
def numbered : String :=
  "jump_to 1
no_op
1:
no_op"

/-- What the text is assembled to. -/
def numberedAssembly : Assembly where
  program := #[.jump .always (.step 1), .noOp, .noOp]
  jumps := ⟨[("1", 2)]⟩

/-- **A label that is a numeral need not be where a jump lands**: this one goes to step 1. -/
theorem numeral_label_not_reached :
    ∃ a, assemble numbered = .ok a ∧ ¬ Assembly.LabelsLand numbered a := by
  refine ⟨numberedAssembly, by decide +kernel, ?_⟩
  intro h
  have hdeclared : Assembly.DeclaredAt numbered "1" 2 := by
    refine ⟨(Text.lines '\n' numbered.toList).take 2, "1:".toList, ["no_op".toList],
      by decide +kernel, by decide +kernel, ?_, by decide +kernel⟩
    intro raw hraw
    rw [List.mem_singleton.mp hraw]
    decide +kernel
  have hjump : Assembly.JumpsAt numbered 0 .always "1" :=
    ⟨[], "jump_to 1".toList, (Text.lines '\n' numbered.toList).drop 1, "jump_to",
      by decide +kernel, by decide +kernel, by decide +kernel, rfl⟩
  obtain ⟨after, htick, hpc⟩ := h "1" 2 { pc := some 0 }
    ⟨hdeclared, by decide, rfl, 0, .always, hjump, rfl, rfl⟩
  cases htick
  cases hpc

end Mailroom
