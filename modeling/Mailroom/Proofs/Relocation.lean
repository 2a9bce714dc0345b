/-
A program that jumps to labels may stand anywhere.

A line `no_op` in front of an instruction moves this instruction and all that follow one step
further down, and the labels move along.  Jumps to labels find what they found before, so the
program does what it did before and only takes longer.

Only the labels directly in front of the instruction stay, and now stand in front of the new
one.  So there is one step for which the place of its instruction (`Relocation.place`) is not
where the program goes on in its stead (`Relocation.landing`), and a machine that comes there
has one more tick to make until it is where it was before (`Ticks.arrives`).
-/
import Mailroom.Proofs.Assembly.Joining
import Mailroom.Proofs.Computer.Course
import Mailroom.Proofs.Cpu.Aside

namespace Mailroom

open Cpu (Ticks Ends)

namespace Relocation

variable {k pc s size : Nat}

/-- Where the instruction of a step is when there is a new one at step `k`. -/
def place (k pc : Nat) : Nat :=
  if pc < k then pc else pc + 1

/-- Where the program goes on when it went on at step `s` before. -/
def landing (k s : Nat) : Nat :=
  if s ≤ k then s else s + 1

theorem landing_succ (k pc : Nat) : place k pc + 1 = landing k (pc + 1) := by
  unfold place landing
  split <;> split <;> omega

theorem landing_eq_place (h : s ≠ k) : landing k s = place k s := by
  unfold place landing
  split <;> split <;> omega

theorem place_lt (hk : k < size) : place k pc < size + 1 ↔ pc < size := by
  unfold place
  split <;> omega

theorem landing_lt (hk : k < size) : landing k s < size + 1 ↔ s < size := by
  unfold landing
  split <;> omega

end Relocation

open Relocation

/-- All jumps are to labels. -/
def Instruction.Symbolic (i : Instruction) : Prop :=
  ∀ d, i.destination? = some d → ∃ name, d = .label name

namespace Assembly

def Symbolic (a : Assembly) : Prop :=
  ∀ i ∈ a.program, i.Symbolic

/-- The second program has one more instruction, a `no_op` at step `k` of the first. -/
structure Widened (k : Nat) (a a' : Assembly) : Prop where
  inside : k < a.program.size
  size : a'.program.size = a.program.size + 1
  inserted : a'.program[k]? = some .noOp
  moved : ∀ pc, a'.program[place k pc]? = a.program[pc]?
  jumps : ∀ name, a'.jumps.get? name = (a.jumps.get? name).map (landing k)

/-! ### Inserting a line -/

/-- The second text has one more line, a `no_op` directly in front of an instruction. -/
def Padded (source source' : String) : Prop :=
  ∃ before pad raw after i, Text.lines '\n' source.toList = before ++ raw :: after ∧
    Text.lines '\n' source'.toList = before ++ pad :: raw :: after ∧
    Line.clean pad = "no_op".toList ∧
    statement? (Line.clean raw) = .ok (some (.instruction i))

variable {source source' : String} {a : Assembly} {k : Nat}

/-- A line may be put anywhere between the lines of a text. -/
theorem padded_of_whole {front back : String} {raw : List Char} {after : List (List Char)}
    {i : Instruction} (hwhole : front = "" ∨ ∃ s, front = s ++ "\n")
    (hlines : Text.lines '\n' back.toList = raw :: after)
    (hraw : statement? (Line.clean raw) = .ok (some (.instruction i))) :
    Padded (front ++ back) (front ++ "no_op\n" ++ back) := by
  have hpad : "no_op\n" = "" ∨ ∃ s, "no_op\n" = s ++ "\n" := .inr ⟨"no_op", rfl⟩
  refine ⟨Text.lines '\n' front.toList, "no_op".toList, raw, after, i, ?_, ?_, ?_, hraw⟩
  · rw [lines_append_of_whole back hwhole, hlines]
  · rw [String.append_assoc, lines_append_of_whole _ hwhole, lines_append_of_whole back hpad,
      hlines]
    rfl
  · decide +kernel

theorem getElem?_place (front back : Program) (i : Instruction) (pc : Nat) :
    ((front.push .noOp).push i ++ back)[place front.size pc]? = (front.push i ++ back)[pc]? := by
  simp only [Array.getElem?_append, Array.getElem?_push, Array.size_push]
  rcases Nat.lt_trichotomy pc front.size with hlt | rfl | hgt
  · have hplace : place front.size pc = pc := if_pos hlt
    have hne : pc ≠ front.size := by omega
    have hne' : pc ≠ front.size + 1 := by omega
    have hfront : pc < front.size + 1 := by omega
    have hfront' : pc < front.size + 1 + 1 := by omega
    rw [hplace, if_pos hfront, if_pos hfront', if_neg hne, if_neg hne, if_neg hne']
  · simp [place]
  · have hplace : place front.size pc = pc + 1 := if_neg (by omega)
    have hback : ¬ pc < front.size + 1 := by omega
    have hback' : ¬ pc + 1 < front.size + 1 + 1 := by omega
    rw [hplace, if_neg hback, if_neg hback', Nat.add_sub_add_right]

theorem getElem?_inserted (front back : Program) (i : Instruction) :
    ((front.push .noOp).push i ++ back)[front.size]? = some .noOp := by
  have hfront : front.size < ((front.push .noOp).push i).size := by
    simp only [Array.size_push]
    omega
  have hne : front.size ≠ (front.push .noOp).size := by
    simp only [Array.size_push]
    omega
  rw [Array.getElem?_append, if_pos hfront, Array.getElem?_push, if_neg hne, Array.getElem?_push,
    if_pos rfl]

/-- The labels of the text behind the new line move along, and those before it stay. -/
theorem get?_landing {t : JumpTable} (hsteps : ∀ entry ∈ t.entries, entry.2 ≤ k) (u : JumpTable)
    (name : String) :
    (t.append (k + 2) u).get? name = ((t.append (k + 1) u).get? name).map (landing k) := by
  rw [JumpTable.get?_append_eq, JumpTable.get?_append_eq]
  cases u.get? name with
  | some s =>
      have hbehind : ¬ k + 1 + s ≤ k := by omega
      simp only [Option.map_some, Option.some_or, landing, if_neg hbehind, Option.some.injEq]
      omega
  | none =>
      cases hold : t.get? name with
      | none => rfl
      | some s =>
          have hbefore : s ≤ k := hsteps _ (JumpTable.mem_of_get? hold)
          simp only [Option.map_none, Option.none_or, Option.map_some, landing, if_pos hbefore]

theorem widened_of_joined {d d₁ d₂ e : Draft} {i : Instruction} {number number' : Nat}
    (hsound : Sound d.program d.jumps)
    (h₁ : Draft.Joined (d.take number (some (.instruction i))) e d₁)
    (h₂ : Draft.Joined
      ((d.take number (some (.instruction .noOp))).take number' (some (.instruction i))) e d₂) :
    Widened d.program.size ⟨d₁.program, d₁.jumps⟩ ⟨d₂.program, d₂.jumps⟩ := by
  have hprogram₁ : d₁.program = d.program.push i ++ e.program := h₁.program
  have hprogram₂ : d₂.program = (d.program.push .noOp).push i ++ e.program := h₂.program
  have hjumps₁ : d₁.jumps = d.jumps.append (d.program.push i).size e.jumps := h₁.jumps
  have hjumps₂ : d₂.jumps = d.jumps.append ((d.program.push .noOp).push i).size e.jumps := h₂.jumps
  refine ⟨?_, ?_, ?_, ?_, ?_⟩
  · simp only [hprogram₁, Array.size_append, Array.size_push]
    omega
  · simp only [hprogram₁, hprogram₂, Array.size_append, Array.size_push]
    omega
  · rw [hprogram₂, getElem?_inserted]
  · intro pc
    rw [hprogram₁, hprogram₂, getElem?_place]
  · intro name
    simp only [hjumps₁, hjumps₂, Array.size_push]
    exact get?_landing hsound.steps e.jumps name

/-- The new line becomes a new instruction, and the text assembles all the same. -/
theorem widened_of_padded (hpadded : Padded source source') (ha : assemble source = .ok a) :
    ∃ k a', assemble source' = .ok a' ∧ Widened k a a' := by
  obtain ⟨before, pad, raw, after, i, hlines, hlines', hpad, hraw⟩ := hpadded
  have hnoOp : statement? (Line.clean pad) = .ok (some (.instruction .noOp)) := by
    rw [hpad]
    decide +kernel
  obtain ⟨d₁, hdraft, rfl⟩ := assemble_eq_ok.mp ha
  rw [draft, hlines] at hdraft
  obtain ⟨d, hbefore, hdraft⟩ := readLines_append_eq_ok.mp hdraft
  obtain ⟨s, hs, hafter⟩ := readLines_cons_eq_ok.mp hdraft
  obtain rfl : s = some (.instruction i) := Except.ok.inj (hs.symm.trans hraw)
  have hsound : Sound d.program d.jumps := sound_of_readLines sound_empty hbefore
  -- the lines behind the instruction make the same draft whatever is in front of them
  have hdistinct : (d.take (before.length + 1) (some (.instruction i))).jumps.Distinct :=
    hsound.distinct
  obtain ⟨e, halone, hjoined⟩ := readLines_alone hdistinct hafter
  obtain ⟨d₂, hbehind, hjoined'⟩ := readLines_behind
    (d := (d.take (before.length + 1) (some (.instruction .noOp))).take
      (before.length + 1 + 1) (some (.instruction i)))
    hsound.distinct halone (before.length + 1 + 1)
  refine ⟨d.program.size, ⟨d₂.program, d₂.jumps⟩, assemble_eq_ok.mpr ⟨d₂, ?_, rfl⟩,
    widened_of_joined hsound hjoined hjoined'⟩
  rw [draft, hlines']
  have hpadded := readLines_cons_eq_ok.mpr ⟨_, hnoOp, readLines_cons_eq_ok.mpr ⟨_, hraw, hbehind⟩⟩
  exact readLines_append_eq_ok.mpr ⟨d, hbefore, hpadded⟩

end Assembly

namespace Cpu

/-- The machine at another step and at a later time. -/
def moved (f : Nat → Nat) (late : Nat) (cpu : Cpu) : Cpu :=
  { cpu with pc := cpu.pc.map f, steps := cpu.steps + late }

variable {a a' : Assembly} {k n late : Nat} {start cpu next : Cpu} {e : Error}

theorem moved_aside (f : Nat → Nat) (late : Nat) : Aside (moved f late) where
  accumulator _ := rfl
  memory _ := rfl
  holding _ _ := rfl
  exchanging _ _ := rfl

/-! ### One instruction -/

/-- A label that stands behind the last instruction does so in both programs. -/
theorem resolve_moved (h : Assembly.Widened k a a') (name : String) :
    (Destination.label name).resolve a'.jumps a'.program.size
      = landing k <$> (Destination.label name).resolve a.jumps a.program.size := by
  simp only [Destination.resolve_eq, Destination.named?, h.jumps, h.size]
  cases a.jumps.get? name with
  | none => rfl
  | some s =>
      simp only [Option.map_some, landing_lt h.inside]
      split <;> rfl

/-- **An instruction does the same where it is now, and goes on where it went on before.** -/
theorem effect_moved (h : Assembly.Widened k a a') {i : Instruction} (hsymbolic : i.Symbolic)
    (pc : Nat) :
    (cpu.moved (place k) late).effect i (place k pc) a'.program.size a'.jumps
      = Prod.map (landing k) (moved (place k) late)
          <$> cpu.effect i pc a.program.size a.jumps := by
  by_cases hin : i = .moveFromInbox
  · subst hin
    simp only [effect, landing_succ, moved]
    cases cpu.inbox <;> rfl
  refine (moved_aside (place k) late).effect_eq hin (fun _ => rfl) (landing_succ k pc) ?_
  intro d hd
  obtain ⟨name, rfl⟩ := hsymbolic d hd
  exact resolve_moved h name

/-- Both machines are at the same instruction, or neither is at any. -/
theorem next?_moved (h : Assembly.Widened k a a') (cpu : Cpu) :
    (cpu.moved (place k) late).next? a'.program
      = (cpu.next? a.program).map (Prod.map (place k) id) := by
  unfold next? moved
  cases cpu.halted with
  | true => rfl
  | false =>
      cases cpu.pc with
      | none => rfl
      | some pc =>
          simp only [Bool.false_eq_true, if_false, Option.map_some, Option.bind_eq_bind,
            Option.bind_some, h.moved]
          cases a.program[pc]? <;> rfl

theorem inside_moved (h : Assembly.Widened k a a') :
    Inside a'.program (cpu.moved (place k) late) ↔ Inside a.program cpu := by
  simp only [Inside, moved, Option.map_eq_some_iff, h.size]
  constructor
  · rintro ⟨_, ⟨pc, hpc, rfl⟩, hlt⟩
    exact ⟨pc, hpc, (place_lt h.inside).mp hlt⟩
  · rintro ⟨pc, hpc, hlt⟩
    exact ⟨_, ⟨pc, hpc, rfl⟩, (place_lt h.inside).mpr hlt⟩

theorem advance_moved (h : Assembly.Widened k a a') (hsymbolic : a.Symbolic) (cpu : Cpu) :
    (cpu.moved (place k) late).advance a'.program a'.jumps
      = moved (landing k) late <$> cpu.advance a.program a.jumps := by
  unfold advance
  rw [next?_moved h]
  cases hnext : cpu.next? a.program with
  | none => rfl
  | some step =>
      obtain ⟨pc, i⟩ := step
      obtain ⟨-, -, hi⟩ := next?_eq_some.mp hnext
      have hsymbolic := hsymbolic i (Array.mem_of_getElem? hi)
      simp only [Option.map_some, Prod.map_apply, id, effect_moved h hsymbolic]
      cases cpu.effect i pc a.program.size a.jumps with
      | error e => rfl
      | ok after =>
          -- the tick is counted on top of the delay
          refine congrArg Except.ok ?_
          simp [moved, Nat.add_right_comm]

theorem tick_moved (h : Assembly.Widened k a a') (hsymbolic : a.Symbolic)
    (htick : tick a.program a.jumps cpu = .ok () next) (late : Nat) :
    tick a'.program a'.jumps (cpu.moved (place k) late) = .ok () (next.moved (landing k) late) := by
  rw [tick_eq_ok] at htick ⊢
  rw [advance_moved h hsymbolic, htick]
  rfl

theorem tick_moved_error (h : Assembly.Widened k a a') (hsymbolic : a.Symbolic)
    (htick : tick a.program a.jumps cpu = .error e cpu) (late : Nat) :
    tick a'.program a'.jumps (cpu.moved (place k) late)
      = .error e (cpu.moved (place k) late) := by
  refine tick_eq_error.mpr ⟨?_, rfl⟩
  rw [advance_moved h hsymbolic, (tick_eq_error.mp htick).1]
  rfl

/-! ### Rows of ticks -/

/-- A machine that comes to the new instruction executes it and is where it was before. -/
theorem Ticks.arrives (h : Assembly.Widened k a a') (hon : cpu.halted = false)
    (hticks : Ticks a'.program a'.jumps start n (cpu.moved (landing k) late)) :
    ∃ extra, Ticks a'.program a'.jumps start (n + extra)
      (cpu.moved (place k) (late + extra)) := by
  by_cases hpc : cpu.pc = some k
  · refine ⟨1, hticks.succ (tick_eq_ok.mpr (advance_eq_ok.mpr ?_))⟩
    refine ⟨k, .noOp, k + 1, cpu.moved (landing k) late, ?_, rfl, ?_⟩
    · exact next?_eq_some.mpr ⟨hon, by simp [moved, hpc, landing], h.inserted⟩
    · simp [moved, hpc, place, Nat.add_assoc]
  · have hsame : cpu.moved (landing k) late = cpu.moved (place k) late := by
      unfold moved
      cases hat : cpu.pc with
      | none => rfl
      | some pc =>
          have hne : pc ≠ k := by
            rintro rfl
            exact hpc hat
          rw [Option.map_some, Option.map_some, landing_eq_place hne]
    exact ⟨0, hsame ▸ hticks⟩

/-- The same ticks are made, and some more at the new instruction. -/
theorem Ticks.moved {base : Cpu} (h : Assembly.Widened k a a') (hsymbolic : a.Symbolic)
    (hticks : Ticks a.program a.jumps base.reset n cpu) :
    ∃ late, Ticks a'.program a'.jumps base.reset (n + late) (cpu.moved (landing k) late) := by
  induction hticks with
  | zero => exact ⟨0, .zero⟩
  | @succ n cpu next before htick ih =>
      obtain ⟨late, hticks⟩ := ih
      obtain ⟨extra, harrived⟩ := hticks.arrives h before.halted_eq
      have hcount : n + 1 + (late + extra) = n + late + extra + 1 := by omega
      refine ⟨late + extra, ?_⟩
      rw [hcount]
      exact harrived.succ (tick_moved h hsymbolic htick (late + extra))

theorem Ends.moved {result : Except Error Unit} (h : Assembly.Widened k a a')
    (hsymbolic : a.Symbolic) (hends : Ends a.program a.jumps cpu result) (late : Nat) :
    Ends a'.program a'.jumps (cpu.moved (place k) late) result := by
  cases hends with
  | left hout => exact .left (mt (inside_moved h).mp hout)
  | dry htick => exact .dry (tick_moved_error h hsymbolic htick late)
  | failed hin htick he =>
      exact .failed ((inside_moved h).mpr hin) (tick_moved_error h hsymbolic htick late) he

end Cpu

/-! ### Runs -/

/-- Outcomes that show the same machine, except that the second has counted more steps. -/
structure Outcome.Alike (o o' : Outcome Unit) : Prop where
  result : o'.result = o.result
  cpu : o'.computer.cpu = { o.computer.cpu with steps := o'.computer.cpu.steps }
  steps : o.computer.cpu.steps ≤ o'.computer.cpu.steps

namespace Computer

variable {a a' : Assembly} {k fuel : Nat} {o : Outcome Unit}

theorem run_of_widened (h : Assembly.Widened k a a') (hsymbolic : a.Symbolic) (c : Computer)
    (hrun : (c.load a).run fuel = some o) :
    ∃ fuel' o', (c.load a').run fuel' = some o' ∧ o.Alike o' := by
  obtain ⟨n, cpu, hticks, hends, hcomputer⟩ := run_iff_ends.mp ⟨fuel, hrun⟩
  obtain ⟨late, hmoved⟩ := hticks.moved h hsymbolic
  obtain ⟨extra, harrived⟩ := hmoved.arrives h hticks.halted_eq
  have hends' := hends.moved h hsymbolic (late + extra)
  obtain ⟨fuel', hrun'⟩ := run_iff_ends (c := c.load a')
    (o := ⟨o.result, (c.load a').ended _ o.result, ()⟩) |>.mpr ⟨_, _, harrived, hends', rfl⟩
  refine ⟨fuel', _, hrun', rfl, ?_, ?_⟩
  · rw [hcomputer]
    rfl
  · rw [hcomputer]
    exact Nat.le_add_right _ _

/-- Ticks of the first run are ticks of the second, so the first cannot go on for longer. -/
theorem run_of_wider (h : Assembly.Widened k a a') (hsymbolic : a.Symbolic) (c : Computer)
    (hrun : (c.load a').run fuel = some o) : ∃ fuel o, (c.load a).run fuel = some o := by
  obtain ⟨n, cpu', hticks', hends', -⟩ := run_iff_ends.mp ⟨fuel, hrun⟩
  rcases Cpu.ticks_or_ends a.program a.jumps c.cpu.reset (n + 1) with
    ⟨cpu, hticks⟩ | ⟨m, cpu, result, -, hticks, hends⟩
  · obtain ⟨late, hmoved⟩ := hticks.moved h hsymbolic
    have hle : n + 1 + late ≤ n := hticks'.le_of_ends hends' hmoved
    omega
  · obtain ⟨fuel, hrun⟩ := run_iff_ends (c := c.load a)
      (o := ⟨result, (c.load a).ended cpu result, ()⟩) |>.mpr ⟨m, cpu, hticks, hends, rfl⟩
    exact ⟨fuel, _, hrun⟩

/--
**A program that only jumps to labels does not depend on where it stands.**  With a line
`no_op` in front of one of its instructions the text still assembles, the program comes to an
end on the same memories and inboxes, and it ends in the same way and no earlier.
-/
theorem run_padded {source source' : String} (hpadded : Assembly.Padded source source')
    (ha : assemble source = .ok a) (hsymbolic : a.Symbolic) :
    ∃ a', assemble source' = .ok a' ∧ ∀ c : Computer,
      ((∃ fuel o, (c.load a).run fuel = some o) ↔ ∃ fuel o, (c.load a').run fuel = some o) ∧
      ∀ fuel fuel' o o', (c.load a).run fuel = some o → (c.load a').run fuel' = some o' →
        o.Alike o' := by
  obtain ⟨k, a', ha', h⟩ := Assembly.widened_of_padded hpadded ha
  refine ⟨a', ha', ?_⟩
  intro c
  refine ⟨⟨?_, ?_⟩, ?_⟩
  · rintro ⟨fuel, o, hrun⟩
    obtain ⟨fuel', o', hrun', -⟩ := run_of_widened h hsymbolic c hrun
    exact ⟨fuel', o', hrun'⟩
  · rintro ⟨fuel', o', hrun'⟩
    exact run_of_wider h hsymbolic c hrun'
  · intro fuel fuel' o o' hrun hrun'
    obtain ⟨fuel'', o'', hrun'', halike⟩ := run_of_widened h hsymbolic c hrun
    have hsame : o'' = o' := Returns.unique ⟨fuel'', hrun''⟩ ⟨fuel', hrun'⟩
    exact hsame ▸ halike

/-- Sends on what comes in up to a zero, and fails there: its last label is behind the program. -/
def relay : String :=
  "move_from_inbox\njump_if_zero_to end\nmove_to_outbox\njump_to loop\nend:"

/-- What the text is assembled to, with a label in front of it. -/
def relayAssembly : Assembly where
  program := #[.moveFromInbox, .jump .ifZero (.label "end"), .moveToOutbox,
    .jump .always (.label "loop")]
  jumps := ⟨[("loop", 0), ("end", 4)]⟩

theorem relay_symbolic : relayAssembly.Symbolic := by
  intro i hi d hd
  simp only [relayAssembly, List.mem_toArray, List.mem_cons, List.not_mem_nil, or_false] at hi
  rcases hi with rfl | rfl | rfl | rfl
  · cases hd
  · exact ⟨_, (Option.some.inj hd).symm⟩
  · cases hd
  · exact ⟨_, (Option.some.inj hd).symm⟩

/-- The new instruction is executed whenever the program goes back to the label before it. -/
theorem relay_padded :
    ∃ a' fuel o, assemble ("loop:\n" ++ "no_op\n" ++ relay) = .ok a' ∧
      (load { cpu := { inbox := [.int 4, .int 0, .letter 'A'] } } a').run fuel = some o ∧
      o.result = .error (.noSuchJumpDestination (.label "end")) ∧
      o.computer.cpu.inbox = [.letter 'A'] ∧ o.computer.cpu.outbox = #[.int 4] ∧
      5 ≤ o.computer.cpu.steps := by
  have hpadded : Assembly.Padded ("loop:\n" ++ relay) ("loop:\n" ++ "no_op\n" ++ relay) :=
    Assembly.padded_of_whole (.inr ⟨"loop:", rfl⟩) (i := .moveFromInbox) rfl (by decide +kernel)
  have hassemble : assemble ("loop:\n" ++ relay) = .ok relayAssembly := by
    decide +kernel
  obtain ⟨a', ha', hruns⟩ := run_padded hpadded hassemble relay_symbolic
  obtain ⟨hends, halike⟩ := hruns { cpu := { inbox := [.int 4, .int 0, .letter 'A'] } }
  obtain ⟨fuel, o, hrun⟩ := hends.mp ⟨6, _, rfl⟩
  have h := halike 6 fuel _ o rfl hrun
  refine ⟨a', fuel, o, ha', hrun, h.result, ?_, ?_, h.steps⟩
  · rw [h.cpu]
    rfl
  · rw [h.cpu]
    rfl

end Computer

end Mailroom
