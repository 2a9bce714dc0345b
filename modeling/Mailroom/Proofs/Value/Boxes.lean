/-
Different boxes have different texts.

Letters are put in quotes but not escaped, so a letter may look like the quote, the comma, the space
or the bracket next to it, and the text of a box cannot be cut at its commas.  It can be read from
the front.  The first character of a value tells a letter from an integer; a letter then takes up
three characters, whatever they are, and an integer ends where its digits end, because no sign that
follows a value is a digit.

So the text of a value, of a box or of the accumulator shows by itself where it ends
(`quoted_append_inj`, `listText_append_inj`, `orEmpty_append_inj`).  This is also why the report on
everything, which has all three of them on one line, can be taken apart again.
-/
import Mailroom.Debugger.Session
import Mailroom.Proofs.Numeral

namespace Mailroom

open Text (Broken broken_cons)

namespace Value

variable {v w : Value} {a b : List Value} {s t : List Char}

/-! ### Values -/

theorem quoted_int (n : Int64) : (int n).quoted = Numeral.ofInt n.toInt := rfl

theorem quoted_letter (c : Char) : (letter c).quoted.toList = ['\'', c, '\''] := by
  simp [quoted]

/-- The signs that the text of an integer can start with. -/
def StartsInteger (c : Char) : Prop :=
  c = '-' ∨ c.isDigit = true

theorem head_ofInt (n : Int) : ∃ c cs, (Numeral.ofInt n).toList = c :: cs ∧ StartsInteger c := by
  have hdigits := Numeral.isDigits_toDigits n.natAbs
  rcases Numeral.ofInt_digits n with ⟨hchars, -⟩ | ⟨hchars, -⟩
  · cases hcs : Nat.toDigits 10 n.natAbs with
    | nil => exact absurd hcs hdigits.nonempty
    | cons c cs =>
        rw [hcs] at hchars
        exact ⟨c, cs, hchars, .inr (hdigits.digits c (by rw [hcs]; exact List.mem_cons_self))⟩
  · exact ⟨'-', _, hchars, .inl rfl⟩

/-- The first character of a value is a quote, a minus sign or a digit. -/
theorem head_quoted (v : Value) :
    ∃ c cs, v.quoted.toList = c :: cs ∧ (c = '\'' ∨ StartsInteger c) := by
  cases v with
  | int n =>
      obtain ⟨c, cs, hchars, hc⟩ := head_ofInt n.toInt
      exact ⟨c, cs, hchars, .inr hc⟩
  | letter c => exact ⟨'\'', [c, '\''], quoted_letter c, .inl rfl⟩

/-- What the text of a value cannot start with. -/
theorem quoted_append_ne_cons {c : Char} (hquote : c ≠ '\'') (hint : ¬ StartsInteger c) :
    v.quoted.toList ++ s ≠ c :: t := by
  intro h
  obtain ⟨d, ds, hchars, hd⟩ := head_quoted v
  rw [hchars] at h
  rw [(List.cons.inj h).1] at hd
  rcases hd with hd | hd
  · exact hquote hd
  · exact hint hd

theorem ofInt_append_ne_quote (n : Int) : (Numeral.ofInt n).toList ++ s ≠ '\'' :: t := by
  intro h
  obtain ⟨c, cs, hchars, hc⟩ := head_ofInt n
  rw [hchars] at h
  rw [(List.cons.inj h).1] at hc
  rcases hc with hc | hc
  · cases hc
  · cases hc

/-- A value can be read off the front of a text, if no character of a word follows it. -/
theorem quoted_append_inj (hs : Broken s) (ht : Broken t)
    (h : v.quoted.toList ++ s = w.quoted.toList ++ t) : v = w ∧ s = t := by
  cases v with
  | int m =>
      cases w with
      | int n =>
          rw [quoted_int, quoted_int] at h
          obtain ⟨htext, hrest⟩ := Numeral.ofInt_append_inj hs ht h
          have hread := (Numeral.signed?_ofInt m).symm.trans
            ((congrArg Numeral.signed? htext).trans (Numeral.signed?_ofInt n))
          exact ⟨congrArg int (Option.some.inj hread), hrest⟩
      | letter d =>
          rw [quoted_int, quoted_letter] at h
          exact absurd h (ofInt_append_ne_quote m.toInt)
  | letter c =>
      cases w with
      | int n =>
          rw [quoted_int, quoted_letter] at h
          exact absurd h.symm (ofInt_append_ne_quote n.toInt)
      | letter d =>
          rw [quoted_letter, quoted_letter] at h
          simp only [List.cons_append, List.nil_append, List.cons.injEq, true_and] at h
          exact ⟨congrArg letter h.1, h.2⟩

/-! ### Boxes -/

/-- What stands behind the first value of a box. -/
def listTail : List Value → List Char
  | [] => [']']
  | v :: rest => ',' :: ' ' :: (v.quoted.toList ++ listTail rest)

theorem listText_nil : (listText []).toList = ['[', ']'] := rfl

theorem listText_cons (v : Value) (rest : List Value) :
    (listText (v :: rest)).toList = '[' :: (v.quoted.toList ++ listTail rest) := by
  have htail : ∀ (v : Value) (rest : List Value),
      (", ".intercalate ((v :: rest).map quoted) ++ "]").toList
        = v.quoted.toList ++ listTail rest := by
    intro v rest
    induction rest generalizing v with
    | nil => simp [listTail]
    | cons w rest ih =>
        have hw := ih w
        rw [List.map_cons, String.toList_append] at hw
        rw [List.map_cons, List.map_cons, String.intercalate_cons_cons]
        simp only [String.toList_append, listTail, List.append_assoc, hw]
        rfl
  rw [listText, String.append_assoc, String.toList_append, htail]
  rfl

theorem broken_listTail (a : List Value) (s : List Char) : Broken (listTail a ++ s) := by
  cases a with
  | nil => exact broken_cons rfl
  | cons v rest => exact broken_cons rfl

theorem listTail_append_inj (h : listTail a ++ s = listTail b ++ t) : a = b ∧ s = t := by
  induction a generalizing b with
  | nil =>
      cases b with
      | nil => exact ⟨rfl, (List.cons.inj h).2⟩
      | cons w b => cases (List.cons.inj h).1
  | cons v a ih =>
      cases b with
      | nil => cases (List.cons.inj h).1
      | cons w b =>
          simp only [listTail, List.cons_append, List.append_assoc, List.cons.injEq,
            true_and] at h
          obtain ⟨hvalue, hrest⟩ :=
            quoted_append_inj (broken_listTail a s) (broken_listTail b t) h
          obtain ⟨hvalues, hafter⟩ := ih hrest
          exact ⟨by rw [hvalue, hvalues], hafter⟩

/-- A box can be read off the front of a text, whatever follows it. -/
theorem listText_append_inj (h : (listText a).toList ++ s = (listText b).toList ++ t) :
    a = b ∧ s = t := by
  have hclosing : ∀ (v : Value) (rest s t : List Char),
      v.quoted.toList ++ rest ++ s ≠ ']' :: t := by
    intro v rest s t
    rw [List.append_assoc]
    exact quoted_append_ne_cons (by decide) (by unfold StartsInteger; decide)
  cases a with
  | nil =>
      cases b with
      | nil => exact ⟨rfl, List.append_cancel_left h⟩
      | cons w b =>
          rw [listText_nil, listText_cons] at h
          exact absurd (List.cons.inj h).2.symm (hclosing w _ t s)
  | cons v a =>
      cases b with
      | nil =>
          rw [listText_nil, listText_cons] at h
          exact absurd (List.cons.inj h).2 (hclosing v _ s t)
      | cons w b =>
          rw [listText_cons, listText_cons] at h
          have hrest : v.quoted.toList ++ listTail a ++ s = w.quoted.toList ++ listTail b ++ t :=
            (List.cons.inj h).2
          rw [List.append_assoc, List.append_assoc] at hrest
          obtain ⟨hvalue, htail⟩ :=
            quoted_append_inj (broken_listTail a s) (broken_listTail b t) hrest
          obtain ⟨hvalues, hafter⟩ := listTail_append_inj htail
          exact ⟨by rw [hvalue, hvalues], hafter⟩

theorem listText_inj : listText a = listText b ↔ a = b := by
  constructor
  · intro h
    have hchars : (listText a).toList ++ [] = (listText b).toList ++ [] := by rw [h]
    exact (listText_append_inj hchars).1
  · intro h
    rw [h]

/-- No value reads `empty`. -/
theorem orEmpty_append_inj {o p : Option Value} (hs : Broken s) (ht : Broken t)
    (h : (orEmpty o).toList ++ s = (orEmpty p).toList ++ t) : o = p ∧ s = t := by
  have hempty : ∀ (v : Value) (s t : List Char),
      v.quoted.toList ++ s ≠ "empty".toList ++ t := by
    intro v s t
    exact quoted_append_ne_cons (by decide) (by unfold StartsInteger; decide)
  cases o with
  | none =>
      cases p with
      | none => exact ⟨rfl, List.append_cancel_left h⟩
      | some w => exact absurd h.symm (hempty w t s)
  | some v =>
      cases p with
      | none => exact absurd h (hempty v s t)
      | some w =>
          obtain ⟨hvalue, hrest⟩ := quoted_append_inj hs ht h
          exact ⟨congrArg some hvalue, hrest⟩

end Value

/-! ### Reports -/

namespace Debugger

variable {c d : Computer}

theorem inboxText_inj : inboxText c = inboxText d ↔ c.cpu.inbox = d.cpu.inbox := by
  rw [inboxText, inboxText, String.append_right_inj, Value.listText_inj]

theorem outboxText_inj : outboxText c = outboxText d ↔ c.cpu.outbox = d.cpu.outbox := by
  rw [outboxText, outboxText, String.append_right_inj, Value.listText_inj, Array.toList_inj]

/-- The line about everything is the three reports one after the other. -/
theorem everything_inj :
    inboxText c ++ "; " ++ accumulatorText c ++ "; " ++ outboxText c
      = inboxText d ++ "; " ++ accumulatorText d ++ "; " ++ outboxText d ↔
    c.cpu.inbox = d.cpu.inbox ∧ c.cpu.accumulator = d.cpu.accumulator ∧
      c.cpu.outbox = d.cpu.outbox := by
  have hbroken : ∀ cs, Broken ("; ".toList ++ cs) := by
    intro cs
    exact broken_cons rfl
  constructor
  · intro h
    have hchars := congrArg String.toList h
    simp only [inboxText, accumulatorText, String.toList_append, List.append_assoc,
      List.append_cancel_left_eq] at hchars
    obtain ⟨hinbox, hrest⟩ := Value.listText_append_inj hchars
    rw [List.append_cancel_left_eq, List.append_cancel_left_eq] at hrest
    obtain ⟨haccumulator, hafter⟩ :=
      Value.orEmpty_append_inj (hbroken _) (hbroken _) hrest
    rw [List.append_cancel_left_eq, String.toList_inj, outboxText_inj] at hafter
    exact ⟨hinbox, haccumulator, hafter⟩
  · intro ⟨hinbox, haccumulator, houtbox⟩
    rw [inboxText_inj.mpr hinbox, outboxText_inj.mpr houtbox, accumulatorText, accumulatorText,
      haccumulator]

/--
**Printed boxes are unambiguous**: boxes have the same text only if they hold the same values, and
so what the debugger reports on the inbox, on the outbox and on everything differs wherever the
machines differ in what is reported.
-/
theorem boxes_told_apart (r s : Session) (c d : Computer) :
    (∀ a b, Value.listText a = Value.listText b ↔ a = b) ∧
    ((r.execute c .inbox).lines = (s.execute d .inbox).lines ↔ c.cpu.inbox = d.cpu.inbox) ∧
    ((r.execute c .outbox).lines = (s.execute d .outbox).lines ↔ c.cpu.outbox = d.cpu.outbox) ∧
    ((r.execute c .everything).lines = (s.execute d .everything).lines ↔
      c.cpu.inbox = d.cpu.inbox ∧ c.cpu.accumulator = d.cpu.accumulator ∧
        c.cpu.outbox = d.cpu.outbox) := by
  have hline : ∀ line line' : String, [line] = [line'] ↔ line = line' := by
    intro line line'
    exact List.singleton_inj
  refine ⟨fun a b => Value.listText_inj, ?_, ?_, ?_⟩
  · exact (hline _ _).trans inboxText_inj
  · exact (hline _ _).trans outboxText_inj
  · exact (hline _ _).trans everything_inj

/-- The letters of a separator between two letters look like two separators at first. -/
example : Value.listText [.letter ',', .letter ' ', .letter '\'', .int (-3)]
    = "[',', ' ', ''', -3]" := by decide

end Debugger

end Mailroom
