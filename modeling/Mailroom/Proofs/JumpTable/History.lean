/-
A jump table remembers the order in which its labels came.

Whatever was done to a table, its answers can be told from the calls alone.  A label names the
step of the last call that inserts it, unless a later one removes it (`LastInserted`).  Its place
is that of the call it came with (`CameWith`), which may be an earlier one: to insert a label that
is there already sends it to another step and leaves it where it stands, and only a label that was
removed in between goes to the end.

All of it is an induction over the calls with the newest one last, because that is where a
history grows.  What one more call changes is said twice, once for the table (`labels_insert`,
`get?_insert`, `Distinct.labels_remove`, `Distinct.get?_remove`) and once for the history
(`lastInserted_concat`, `cameWith_concat`), and the two agree.
-/
import Mathlib.Data.List.Induction
import Mathlib.Data.List.Perm.Subperm
import Mailroom.Proofs.JumpTable

namespace Mailroom

namespace JumpTable

/-! ### Calls -/

/-- What a jump table can be told to do. -/
inductive Call where
  | insert (label : String) (step : Nat)
  | remove (label : String)

/-- The label that a call is about. -/
def Call.label : Call → String
  | insert label _ => label
  | remove label => label

/-- The answer to a call, and the table after it. -/
def Call.run (t : JumpTable) : Call → Option Nat × JumpTable
  | insert label step => t.insert label step
  | remove label => t.remove label

/-- The table that some calls make of an empty one. -/
def replay (calls : List Call) : JumpTable :=
  calls.foldl (fun t c => (c.run t).2) {}

/-- The last call about the label inserts it, with this step. -/
def LastInserted (calls : List Call) (label : String) (step : Nat) : Prop :=
  ∃ before after, calls = before ++ .insert label step :: after ∧
    ∀ c ∈ after, c.label ≠ label

/-- The label was not there before call number `i`, which inserts it, and no later call removes
it. -/
def CameWith (calls : List Call) (label : String) (i : Nat) : Prop :=
  ∃ before step after, calls = before ++ .insert label step :: after ∧ before.length = i ∧
    (∀ s, ¬ LastInserted before label s) ∧ ∀ c ∈ after, c ≠ .remove label

variable {t : JumpTable} {calls : List Call} {c : Call} {label other : String} {step i j : Nat}

theorem replay_concat (calls : List Call) (c : Call) :
    replay (calls ++ [c]) = (c.run (replay calls)).2 := by
  rw [replay, List.foldl_append]
  rfl

/-! ### Taking a label away -/

/-- The other labels stay in their order. -/
theorem Distinct.labels_remove (h : t.Distinct) (label : String) :
    (t.remove label).2.labels = t.labels.filter (· ≠ label) := by
  have herase : (t.remove label).2.labels = t.labels.erase label := by
    rw [labels, labels, List.erase_eq_eraseP', List.eraseP_map]
    rfl
  rw [herase, List.Nodup.erase_eq_filter h]
  refine List.filter_congr ?_
  intro other _
  rw [Bool.eq_iff_iff]
  simp

theorem Distinct.remove (h : t.Distinct) (label : String) : (t.remove label).2.Distinct := by
  unfold Distinct
  rw [h.labels_remove]
  exact List.Nodup.filter _ h

/-- The other labels keep their steps. -/
theorem Distinct.get?_remove (h : t.Distinct) (label other : String) :
    (t.remove label).2.get? other = if label = other then none else t.get? other := by
  by_cases heq : label = other
  · subst heq
    rw [if_pos rfl, get?_eq_none, h.labels_remove]
    simp
  · rw [if_neg heq]
    apply Option.ext
    intro step
    rw [(h.remove label).get?_eq_some, h.get?_eq_some]
    exact List.mem_eraseP_of_neg (by simpa using Ne.symm heq)

/-! ### Steps and labels after all calls -/

theorem not_lastInserted_nil : ¬ LastInserted [] label step := by
  intro ⟨before, after, hcalls, _⟩
  simp at hcalls

/-- A call about the label settles what it names, and any other leaves it as it was. -/
theorem lastInserted_concat : LastInserted (calls ++ [c]) label step ↔
    c = .insert label step ∨ c.label ≠ label ∧ LastInserted calls label step := by
  constructor
  · intro ⟨before, after, hcalls, hafter⟩
    rcases concat_eq_append_cons.mp hcalls with ⟨-, -, hc⟩ | ⟨back, rfl, hback⟩
    · exact Or.inl hc.symm
    · rw [List.forall_mem_append, List.forall_mem_singleton] at hafter
      exact Or.inr ⟨hafter.2, before, back, hback, hafter.1⟩
  · rintro (rfl | ⟨hc, before, back, rfl, hback⟩)
    · exact ⟨calls, [], rfl, by simp⟩
    · refine ⟨before, back ++ [c], by simp, ?_⟩
      rw [List.forall_mem_append, List.forall_mem_singleton]
      exact ⟨hback, hc⟩

theorem distinct_replay (calls : List Call) : (replay calls).Distinct := by
  induction calls using List.reverseRecOn with
  | nil => exact distinct_empty
  | append_singleton calls c ih =>
      rw [replay_concat]
      cases c with
      | insert label step => exact ih.insert label step
      | remove label => exact ih.remove label

theorem get?_replay : (replay calls).get? label = some step ↔ LastInserted calls label step := by
  induction calls using List.reverseRecOn with
  | nil => exact iff_of_false (by simp [replay, get?]) not_lastInserted_nil
  | append_singleton calls c ih =>
      rw [replay_concat, lastInserted_concat, ← ih]
      cases c with
      | insert other step' =>
          show ((replay calls).insert other step').2.get? label = some step ↔ _
          rw [get?_insert]
          by_cases heq : other = label
          · simp [heq, Call.label]
          · simp [heq, Call.label]
      | remove other =>
          show ((replay calls).remove other).2.get? label = some step ↔ _
          rw [(distinct_replay calls).get?_remove]
          by_cases heq : other = label
          · simp [heq, Call.label]
          · simp [heq, Call.label]

theorem mem_labels_replay :
    label ∈ (replay calls).labels ↔ ∃ step, LastInserted calls label step := by
  simp only [← get?_replay, ← Option.isSome_iff_exists, ← Option.ne_none_iff_isSome, ne_eq,
    get?_eq_none, not_not]

/-! ### Places -/

theorem CameWith.lt (h : CameWith calls label i) : i < calls.length := by
  obtain ⟨before, step, after, rfl, rfl, -, -⟩ := h
  simp

/-- A label keeps its place until it is removed, and gets one if it is inserted without having
one. -/
theorem cameWith_concat : CameWith (calls ++ [c]) label i ↔
    CameWith calls label i ∧ c ≠ .remove label ∨
      i = calls.length ∧ (∃ step, c = .insert label step) ∧ label ∉ (replay calls).labels := by
  rw [mem_labels_replay, not_exists]
  constructor
  · intro ⟨before, step, after, hcalls, hi, hbefore, hafter⟩
    rcases concat_eq_append_cons.mp hcalls with ⟨-, rfl, hc⟩ | ⟨back, rfl, hback⟩
    · exact Or.inr ⟨hi.symm, ⟨step, hc.symm⟩, hbefore⟩
    · rw [List.forall_mem_append, List.forall_mem_singleton] at hafter
      exact Or.inl ⟨⟨before, step, back, hback, hi, hbefore, hafter.1⟩, hafter.2⟩
  · rintro (⟨⟨before, step, back, rfl, hi, hbefore, hback⟩, hc⟩ | ⟨rfl, ⟨step, rfl⟩, hnone⟩)
    · refine ⟨before, step, back ++ [c], by simp, hi, hbefore, ?_⟩
      rw [List.forall_mem_append, List.forall_mem_singleton]
      exact ⟨hback, hc⟩
    · exact ⟨calls, step, [], rfl, rfl, hnone, by simp⟩

/-- A label that is there came with some call. -/
theorem exists_cameWith : (∃ i, CameWith calls label i) ↔ label ∈ (replay calls).labels := by
  induction calls using List.reverseRecOn with
  | nil =>
      refine iff_of_false ?_ (by simp [replay, labels])
      intro hcame
      obtain ⟨i, hi⟩ := hcame
      exact Nat.not_lt_zero i hi.lt
  | append_singleton calls c ih =>
      rw [replay_concat]
      simp only [cameWith_concat, exists_or, exists_and_right, exists_eq, true_and, ih]
      cases c with
      | insert other step =>
          show _ ↔ label ∈ ((replay calls).insert other step).2.labels
          rw [labels_insert]
          by_cases heq : other = label
          · subst heq
            by_cases hmem : other ∈ (replay calls).labels <;> simp [hmem]
          · by_cases hmem : other ∈ (replay calls).labels <;> simp [hmem, heq, Ne.symm heq]
      | remove other =>
          show _ ↔ label ∈ ((replay calls).remove other).2.labels
          rw [(distinct_replay calls).labels_remove]
          simp [@eq_comm _ label other]

/-- A label that is there keeps its place, whatever the next call. -/
theorem CameWith.of_concat (h : CameWith (calls ++ [c]) label i)
    (hmem : label ∈ (replay calls).labels) : CameWith calls label i := by
  rcases cameWith_concat.mp h with ⟨hi, -⟩ | ⟨-, -, hnone⟩
  · exact hi
  · exact absurd hmem hnone

theorem CameWith.unique (hi : CameWith calls label i) (hj : CameWith calls label j) : i = j := by
  induction calls using List.reverseRecOn with
  | nil => exact absurd hi.lt (Nat.not_lt_zero i)
  | append_singleton calls c ih =>
      by_cases hmem : label ∈ (replay calls).labels
      · exact ih (hi.of_concat hmem) (hj.of_concat hmem)
      · -- The label has come with the newest call, because it was not there before.
        have hnew : ∀ {k}, CameWith (calls ++ [c]) label k → k = calls.length := by
          intro k hk
          rcases cameWith_concat.mp hk with ⟨hold, -⟩ | ⟨hk, -, -⟩
          · exact absurd (exists_cameWith.mp ⟨k, hold⟩) hmem
          · exact hk
        rw [hnew hi, hnew hj]

/-- The first label came with an earlier call than the second. -/
def Earlier (calls : List Call) (first second : String) : Prop :=
  ∀ i j, CameWith calls first i → CameWith calls second j → i < j

/-- One more call does not change which of two labels came first. -/
theorem earlier_concat {l : List String} (h : l.Pairwise (Earlier calls))
    (hl : ∀ label ∈ l, label ∈ (replay calls).labels) : l.Pairwise (Earlier (calls ++ [c])) := by
  refine h.imp_of_mem ?_
  intro first second hfirst hsecond hearlier i j hi hj
  exact hearlier i j (hi.of_concat (hl first hfirst)) (hj.of_concat (hl second hsecond))

theorem pairwise_earlier (calls : List Call) :
    (replay calls).labels.Pairwise (Earlier calls) := by
  induction calls using List.reverseRecOn with
  | nil => exact List.Pairwise.nil
  | append_singleton calls c ih =>
      rw [replay_concat]
      cases c with
      | insert label step =>
          show ((replay calls).insert label step).2.labels.Pairwise _
          have hold := earlier_concat (c := .insert label step) ih fun _ h => h
          rw [labels_insert]
          by_cases hmem : label ∈ (replay calls).labels
          · rw [if_pos hmem]
            exact hold
          · rw [if_neg hmem]
            refine List.pairwise_append.mpr ⟨hold, List.pairwise_singleton _ _, ?_⟩
            intro first hfirst second hsecond i j hi hj
            rw [List.mem_singleton.mp hsecond] at hj
            rcases cameWith_concat.mp hj with ⟨hlabel, -⟩ | ⟨rfl, -, -⟩
            · exact absurd (exists_cameWith.mp ⟨j, hlabel⟩) hmem
            · exact (hi.of_concat hfirst).lt
      | remove label =>
          show ((replay calls).remove label).2.labels.Pairwise _
          rw [(distinct_replay calls).labels_remove]
          exact earlier_concat (ih.sublist List.filter_sublist) fun _ h => List.mem_of_mem_filter h

/-! ### The table as a map with an order -/

theorem Distinct.labelsAt_eq (h : t.Distinct) (step : Nat) :
    t.labelsAt step = t.labels.filter fun label => t.get? label = some step := by
  rw [labelsAt, labels, List.filter_map]
  congr 1
  refine List.filter_congr ?_
  intro entry hentry
  have hget : t.get? entry.1 = some entry.2 := h.get?_eq_some.mpr hentry
  simp [hget, beq_eq_decide]

/-- What the calls say about the table that they have made. -/
structure Told (calls : List Call) (t : JumpTable) : Prop where
  /-- No label is there twice. -/
  distinct : t.labels.Nodup
  /-- A label names the step of its last insertion if it was not removed afterwards, -/
  found : ∀ label step, t.get? label = some step ↔ LastInserted calls label step
  /-- and nothing otherwise. -/
  missing : ∀ label, t.get? label = none ↔ ∀ step, ¬ LastInserted calls label step
  /-- The next call is answered with what the label names before it. -/
  answered : ∀ c : Call, (c.run t).1 = t.get? c.label
  /-- The entries are the labels that name a step, with that step. -/
  entries : ∀ label step, (label, step) ∈ t.entries ↔ t.get? label = some step
  /-- Each label came with one call, -/
  came : ∀ label ∈ t.labels, ∃! i, CameWith calls label i
  /-- and their order is that of these calls. -/
  ordered : t.labels.Pairwise (Earlier calls)
  /-- A label that is inserted again keeps its place, -/
  again : ∀ label step, label ∈ t.labels → (t.insert label step).2.labels = t.labels
  /-- a new one goes to the end, -/
  fresh : ∀ label step, label ∉ t.labels → (t.insert label step).2.labels = t.labels ++ [label]
  /-- a label that is removed leaves the others in their order, -/
  removed : ∀ label, (t.remove label).2.labels = t.labels.filter (· ≠ label)
  /-- and goes to the end when it comes back. -/
  returned : ∀ label step, ((t.remove label).2.insert label step).2.labels
    = t.labels.filter (· ≠ label) ++ [label]
  /-- The size is the number of labels that are there. -/
  size : ∀ present : List String, present.Nodup →
    (∀ label, label ∈ present ↔ ∃ step, LastInserted calls label step) → t.size = present.length
  /-- The labels of a step are those that name it, in their order. -/
  atStep : ∀ step, t.labelsAt step = t.labels.filter fun label => t.get? label = some step

/--
**A jump table is a map that remembers the order of insertion**, after any calls.
-/
theorem replay_told (calls : List Call) : Told calls (replay calls) where
  distinct := distinct_replay calls
  found label step := get?_replay
  missing label := by
    rw [get?_eq_none, mem_labels_replay, not_exists]
  answered c := by
    cases c with
    | insert label step => exact insert_fst _ label step
    | remove label => rfl
  entries label step := (distinct_replay calls).get?_eq_some.symm
  came := by
    intro label hlabel
    obtain ⟨i, hi⟩ := exists_cameWith.mpr hlabel
    exact ⟨i, hi, fun j hj => hj.unique hi⟩
  ordered := pairwise_earlier calls
  again := by
    intro label step hmem
    rw [labels_insert, if_pos hmem]
  fresh := by
    intro label step hmem
    rw [labels_insert, if_neg hmem]
  removed := (distinct_replay calls).labels_remove
  returned := by
    intro label step
    have hgone : label ∉ ((replay calls).remove label).2.labels := by
      rw [(distinct_replay calls).labels_remove]
      simp
    rw [labels_insert, if_neg hgone, (distinct_replay calls).labels_remove]
  size := by
    intro present hnodup hpresent
    have hperm : (replay calls).labels.Perm present := by
      rw [List.perm_ext_iff_of_nodup (distinct_replay calls) hnodup]
      intro label
      rw [hpresent, mem_labels_replay]
    rw [← hperm.length_eq, labels, List.length_map]
    rfl
  atStep := (distinct_replay calls).labelsAt_eq

/-- `a` keeps its place when it is inserted again and loses it when it is removed in between. -/
example : (replay [.insert "a" 1, .insert "b" 1, .insert "a" 2]).entries = [("a", 2), ("b", 1)] ∧
    (replay [.insert "a" 1, .insert "b" 1, .remove "a", .insert "a" 2]).entries
      = [("b", 1), ("a", 2)] := by
  decide

end JumpTable

end Mailroom
