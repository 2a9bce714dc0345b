/-
Each label has one entry in a jump table.

The table is a list of entries and nothing in its type keeps a label from being there
twice.  Declaring a label is what keeps it unique: an entry that exists is changed where
it stands, and only a label that is new gets an entry at the end.  As long as that is
the only way to make entries, looking a label up and having an entry are the same thing.
-/
import Mathlib.Data.List.Nodup
import Mailroom.JumpTable

namespace Mailroom

/-- A list with one more element at its end, cut before one of its elements. -/
theorem concat_eq_append_cons {α : Type} {l before after : List α} {x y : α} :
    l ++ [x] = before ++ y :: after ↔ (after = [] ∧ before = l ∧ y = x) ∨
      ∃ back, after = back ++ [x] ∧ l = before ++ y :: back := by
  constructor
  · intro h
    rcases after.eq_nil_or_concat with rfl | ⟨back, z, rfl⟩
    · obtain ⟨rfl, hlast⟩ := List.append_inj' h rfl
      exact .inl ⟨rfl, rfl, (List.cons.inj hlast).1.symm⟩
    · have h' : l ++ [x] = (before ++ y :: back) ++ [z] := by simpa using h
      obtain ⟨hfront, hlast⟩ := List.append_inj' h' rfl
      rw [(List.cons.inj hlast).1]
      exact .inr ⟨back, by simp, hfront⟩
  · rintro (⟨rfl, rfl, rfl⟩ | ⟨back, rfl, rfl⟩)
    · rfl
    · simp

namespace JumpTable

/-- The labels in the order of their entries. -/
def labels (t : JumpTable) : List String :=
  t.entries.map (·.1)

/-- No label has more than one entry. -/
def Distinct (t : JumpTable) : Prop :=
  t.labels.Nodup

variable {t : JumpTable} {label : String} {step : Nat}

theorem rebind_eq_none {entries : List (String × Nat)} (h : label ∉ entries.map (·.1)) :
    rebind label step entries = none := by
  induction entries with
  | nil => rfl
  | cons entry rest ih =>
      rw [List.map_cons, List.mem_cons, not_or] at h
      obtain ⟨hentry, hrest⟩ := h
      have hne : ¬ (entry.1 == label) = true := by simpa using Ne.symm hentry
      rw [rebind, if_neg hne, ih hrest]
      rfl

/-- A label that is there keeps its place, and everything around it stays. -/
theorem rebind_eq_some {entries : List (String × Nat)} (h : label ∈ entries.map (·.1)) :
    ∃ front old back, entries = front ++ (label, old) :: back ∧ label ∉ front.map (·.1) ∧
      rebind label step entries = some (old, front ++ (label, step) :: back) := by
  induction entries with
  | nil => cases h
  | cons entry rest ih =>
      by_cases hentry : entry.1 = label
      · subst hentry
        exact ⟨[], entry.2, rest, rfl, by simp, by simp [rebind]⟩
      · have hrest : label ∈ rest.map (·.1) :=
          (List.mem_cons.mp h).resolve_left (Ne.symm hentry)
        obtain ⟨front, old, back, rfl, hfront, hrebind⟩ := ih hrest
        refine ⟨entry :: front, old, back, rfl, ?_, ?_⟩
        · simpa [Ne.symm hentry] using hfront
        · rw [rebind, if_neg (by simpa using hentry), hrebind]
          rfl

/-! ### Declaring a label -/

/-- A new label comes last. -/
theorem insert_fresh (h : label ∉ t.labels) :
    t.insert label step = (none, ⟨t.entries ++ [(label, step)]⟩) := by
  rw [insert, rebind_eq_none h]

/-- A label that is there already is sent to another step. -/
theorem insert_again (h : label ∈ t.labels) :
    ∃ front old back, t.entries = front ++ (label, old) :: back ∧ label ∉ front.map (·.1) ∧
      t.insert label step = (some old, ⟨front ++ (label, step) :: back⟩) := by
  obtain ⟨front, old, back, hentries, hfront, hrebind⟩ := rebind_eq_some h
  refine ⟨front, old, back, hentries, hfront, ?_⟩
  rw [insert, hrebind]

theorem labels_insert (t : JumpTable) (label : String) (step : Nat) :
    (t.insert label step).2.labels =
      if label ∈ t.labels then t.labels else t.labels ++ [label] := by
  by_cases h : label ∈ t.labels
  · obtain ⟨front, old, back, hentries, -, hinsert⟩ := insert_again h
    rw [if_pos h, hinsert, labels, labels, hentries]
    simp
  · rw [if_neg h, insert_fresh h]
    simp [labels]

theorem distinct_empty : ({} : JumpTable).Distinct :=
  List.nodup_nil

theorem Distinct.insert (h : t.Distinct) (label : String) (step : Nat) :
    (t.insert label step).2.Distinct := by
  unfold Distinct
  rw [labels_insert]
  split
  · exact h
  · next hfresh =>
    refine List.nodup_append.mpr ⟨h, by simp, ?_⟩
    intro a ha b hb
    rw [List.mem_singleton.mp hb]
    rintro rfl
    exact hfresh ha

/-- Declaring a label makes no entries but the one that is asked for. -/
theorem mem_insert {entry : String × Nat} (h : entry ∈ (t.insert label step).2.entries) :
    entry ∈ t.entries ∨ entry = (label, step) := by
  by_cases hmem : label ∈ t.labels
  · obtain ⟨front, old, back, hentries, -, hinsert⟩ := insert_again hmem
    rw [hinsert] at h
    rw [hentries]
    rcases List.mem_append.mp h with h | h
    · exact Or.inl (List.mem_append_left _ h)
    · rcases List.mem_cons.mp h with h | h
      · exact Or.inr h
      · exact Or.inl (List.mem_append_right _ (List.mem_cons_of_mem _ h))
  · rw [insert_fresh hmem] at h
    rcases List.mem_append.mp h with h | h
    · exact Or.inl h
    · exact Or.inr (List.mem_singleton.mp h)

/-! ### Looking a label up -/

theorem mem_labelsAt : label ∈ t.labelsAt step ↔ (label, step) ∈ t.entries := by
  constructor
  · intro h
    obtain ⟨entry, hentry, rfl⟩ := List.mem_map.mp h
    obtain ⟨hmem, hstep⟩ := List.mem_filter.mp hentry
    rw [← beq_iff_eq.mp hstep]
    exact hmem
  · intro h
    have hkept : (label, step) ∈ t.entries.filter (·.2 == step) :=
      List.mem_filter.mpr ⟨h, by simp⟩
    exact List.mem_map.mpr ⟨_, hkept, rfl⟩

theorem get?_eq_none : t.get? label = none ↔ label ∉ t.labels := by
  rw [get?, Option.map_eq_none_iff, List.find?_eq_none, labels, List.mem_map]
  constructor
  · rintro h ⟨entry, hentry, rfl⟩
    simpa using h entry hentry
  · intro h entry hentry hlabel
    exact h ⟨entry, hentry, by simpa using hlabel⟩

/-- The first part of a table that knows the label decides. -/
theorem get?_append (front back : List (String × Nat)) (label : String) :
    (⟨front ++ back⟩ : JumpTable).get? label
      = ((⟨front⟩ : JumpTable).get? label).or ((⟨back⟩ : JumpTable).get? label) := by
  simp only [get?, List.find?_append, Option.map_or]

theorem get?_cons (entry : String × Nat) (rest : List (String × Nat)) (label : String) :
    (⟨entry :: rest⟩ : JumpTable).get? label
      = if entry.1 = label then some entry.2 else (⟨rest⟩ : JumpTable).get? label := by
  by_cases h : entry.1 = label
  · simp [get?, h]
  · have hno : (entry.1 == label) = false := by simpa using h
    simp [get?, hno, h]

/-- A label names the step it was declared with last, whatever the table. -/
theorem get?_insert (t : JumpTable) (label : String) (step : Nat) (label' : String) :
    (t.insert label step).2.get? label' = if label = label' then some step else t.get? label' := by
  by_cases h : label ∈ t.labels
  · obtain ⟨front, old, back, hentries, hfront, hinsert⟩ := insert_again h
    obtain ⟨entries⟩ := t
    subst hentries
    rw [hinsert, get?_append, get?_append, get?_cons, get?_cons]
    by_cases heq : label = label'
    · have hnone : (⟨front⟩ : JumpTable).get? label' = none := get?_eq_none.mpr (heq ▸ hfront)
      rw [if_pos heq, if_pos heq, hnone, Option.none_or]
    · rw [if_neg heq, if_neg heq, if_neg heq]
  · rw [insert_fresh h, get?_append, get?_cons]
    by_cases heq : label = label'
    · have hnone : t.get? label' = none := get?_eq_none.mpr (heq ▸ h)
      rw [if_pos heq, if_pos heq, hnone, Option.none_or]
    · rw [if_neg heq, if_neg heq]
      exact Option.or_none

/-- Declaring a label answers what it named before. -/
theorem insert_fst (t : JumpTable) (label : String) (step : Nat) :
    (t.insert label step).1 = t.get? label := by
  by_cases h : label ∈ t.labels
  · obtain ⟨front, old, back, hentries, hfront, hinsert⟩ := insert_again h
    obtain ⟨entries⟩ := t
    subst hentries
    have hnone : (⟨front⟩ : JumpTable).get? label = none := get?_eq_none.mpr hfront
    rw [hinsert, get?_append, get?_cons, hnone, if_pos rfl, Option.none_or]
  · rw [insert_fresh h, get?_eq_none.mpr h]

/-- What is looked up is in the table, whatever the table. -/
theorem mem_of_get? (h : t.get? label = some step) : (label, step) ∈ t.entries := by
  obtain ⟨entry, hfind, rfl⟩ := Option.map_eq_some_iff.mp h
  have hlabel : entry.1 = label := by simpa using List.find?_some hfind
  rw [← hlabel]
  exact List.mem_of_find?_eq_some hfind

theorem Distinct.step_unique (h : t.Distinct) {step' : Nat} (hstep : (label, step) ∈ t.entries)
    (hstep' : (label, step') ∈ t.entries) : step = step' := by
  have hentry := List.inj_on_of_nodup_map h hstep hstep' rfl
  exact congrArg Prod.snd hentry

theorem Distinct.get?_eq_some (h : t.Distinct) :
    t.get? label = some step ↔ (label, step) ∈ t.entries := by
  constructor
  · exact mem_of_get?
  · intro hmem
    cases hget : t.get? label with
    | none =>
        have hnone := List.find?_eq_none.mp (Option.map_eq_none_iff.mp hget) _ hmem
        simp at hnone
    | some step' =>
        have hmem' : (label, step') ∈ t.entries := mem_of_get? hget
        rw [h.step_unique hmem hmem']

/-- The labels and their steps are all there is to a table. -/
theorem Distinct.ext {u : JumpTable} (ht : t.Distinct) (hu : u.Distinct)
    (hlabels : t.labels = u.labels) (hget : ∀ label, t.get? label = u.get? label) : t = u := by
  have hentries : ∀ {v : JumpTable}, v.Distinct →
      v.entries.map some = v.labels.map fun label => (v.get? label).map (label, ·) := by
    intro v hv
    rw [labels, List.map_map]
    refine List.map_congr_left ?_
    intro entry hentry
    simp only [Function.comp_apply, hv.get?_eq_some.mpr hentry, Option.map_some]
  have hsame : t.entries.map some = u.entries.map some := by
    simp only [hentries ht, hentries hu, hlabels, hget]
  obtain ⟨entries⟩ := t
  obtain ⟨entries'⟩ := u
  exact congrArg mk (List.map_injective_iff.mpr (fun _ _ => Option.some.inj) hsame)

end JumpTable

end Mailroom
