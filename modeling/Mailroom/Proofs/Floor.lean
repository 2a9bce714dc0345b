/-
A floor is decoded faithfully or refused.

Nothing in a document is coerced.  The number of a tile is an integer without a sign, a value is an
integer or a string of one character, and whatever else stands in one of these places makes the
whole document no floor.  `Index` and `Item` are the two rules.

Decoding takes the members of an object one after the other.  The members of the floor itself may
come in any order, but each only once (`Gathered`); of the members of a map those with the same key
replace one another, and the last one counts (`given?`).  That is all that the order matters.

`Acceptable` says of the members of an object that they make a floor, and `Faithful` which one.
-/
import Mathlib.Data.List.Forall2
import Mathlib.Data.List.Induction
import Mathlib.Data.List.Nodup
import Mailroom.Floor
import Mailroom.Proofs.Json.Number
import Mailroom.Proofs.Memory
import Mailroom.Proofs.Reading

namespace Mailroom

/-- A list is mapped if each of its elements is. -/
theorem mapM_eq_ok {ε α β : Type} {f : α → Except ε β} {l : List α} {l' : List β} :
    l.mapM f = .ok l' ↔ List.Forall₂ (fun a b => f a = .ok b) l l' := by
  induction l generalizing l' with
  | nil =>
      rw [List.forall₂_nil_left_iff]
      exact ⟨fun h => (Except.ok.inj h).symm, fun h => congrArg Except.ok h.symm⟩
  | cons a l ih =>
      simp only [List.mapM_cons, bind_eq_ok, ih, List.forall₂_cons_left_iff]
      constructor
      · intro ⟨b, hb, bs, hbs, heq⟩
        exact ⟨b, bs, hb, hbs, (Except.ok.inj heq).symm⟩
      · intro ⟨b, bs, hb, hbs, heq⟩
        exact ⟨b, hb, bs, hbs, congrArg Except.ok heq.symm⟩

namespace Floor

open Numeral (unsignedBound)

/-! ### Items -/

/-- The number of a tile: an integer that has no sign and fits 64 bits. -/
inductive Index : Json → Nat → Prop
  | intro {n : Nat} (h : n < unsignedBound) : Index (.integer n) n

/-- A value: an integer that fits 64 bits with its sign, or a string of one character, which may
be a digit. -/
inductive Item : Json → Value → Prop
  | int (n : Int64) : Item (.integer n.toInt) (.int n)
  | letter (c : Char) : Item (.string (String.ofList [c])) (.letter c)

variable {j j' : Json} {n : Nat} {v : Value}

theorem refuse_ne_ok {α : Type} {a : α} : refuse j ≠ .ok a := by
  unfold refuse
  split
  · exact nofun
  · exact nofun

theorem indexOfJson_eq_ok : indexOfJson j = .ok n ↔ Index j n := by
  constructor
  · intro h
    unfold indexOfJson at h
    split at h
    · next i =>
      split at h
      · next hfits =>
        cases h
        have hi : ((i.toNat : Nat) : Int) = i := Int.toNat_of_nonneg hfits.1
        have hbound : i.toNat < unsignedBound := by omega
        rw [← hi]
        exact .intro hbound
      · cases h
    · exact absurd h refuse_ne_ok
  · intro ⟨hbound⟩
    have hfits : 0 ≤ (n : Int) ∧ (n : Int) < unsignedBound := by omega
    rw [indexOfJson, if_pos hfits, Int.toNat_natCast]

theorem valueOfJson_eq_ok : Value.ofJson j = .ok v ↔ Item j v := by
  constructor
  · intro h
    unfold Value.ofJson at h
    split at h
    · cases h
    · split at h
      · next i =>
        split at h
        · next w hw =>
          cases h
          rw [← Numeral.word?_eq_some.mp hw]
          exact .int w
        · cases h
      · next s =>
        split at h
        · next w hw =>
          cases h
          obtain ⟨c, hv, hs⟩ := Value.ofSingle?_eq_some.mp hw
          rw [hv, hs]
          exact .letter c
        · cases h
      · cases h
  · intro h
    cases h with
    | int n =>
        have hword : Numeral.word? n.toInt = some n := Numeral.word?_eq_some.mpr rfl
        simp only [Value.ofJson, Json.fault?, hword]
    | letter c =>
        have hsingle := Value.ofSingle?_eq_some.mpr ⟨c, rfl, rfl⟩
        simp only [Value.ofJson, Json.fault?, hsingle]

/-- The items leave no choice of the values. -/
theorem items_unique {items : List Json} {l l' : List Value} (h : List.Forall₂ Item items l)
    (h' : List.Forall₂ Item items l') : l = l' := by
  have hmapM : ∀ l, List.Forall₂ Item items l → items.mapM Value.ofJson = .ok l := by
    intro l hl
    exact mapM_eq_ok.mpr (hl.imp fun _ _ => valueOfJson_eq_ok.mpr)
  exact Except.ok.inj ((hmapM l h).symm.trans (hmapM l' h'))

/-! ### Arrays -/

variable {α : Type} {a b : α} {decode : Json → Except Json.Error α} {stop : Option Json.Fault}

theorem close_eq_ok : close a stop = .ok b ↔ stop = none ∧ b = a := by
  cases stop with
  | none => simp [close, eq_comm]
  | some fault => simp [close]

/-- An array is decoded item by item. -/
theorem listOfJson_eq_ok {l : List α} : listOfJson decode j = .ok l ↔
    ∃ items, j = .array items none ∧ List.Forall₂ (fun item a => decode item = .ok a) items l := by
  constructor
  · intro h
    unfold listOfJson at h
    split at h
    · next items stop =>
      obtain ⟨l', hitems, hclose⟩ := bind_eq_ok.mp h
      obtain ⟨hstop, hl⟩ := close_eq_ok.mp hclose
      rw [hstop, hl]
      exact ⟨items, rfl, mapM_eq_ok.mp hitems⟩
    · exact absurd h refuse_ne_ok
  · intro ⟨items, hj, hitems⟩
    rw [hj]
    exact bind_eq_ok.mpr ⟨l, mapM_eq_ok.mpr hitems, rfl⟩

/-! ### Objects as maps -/

/-- What is given for a key: the last member that has the key. -/
def given? (members : List (String × Json)) (key : String) : Option Json :=
  (members.filter (·.1 == key)).getLast?.map (·.2)

/-- Members with different keys may have changed places, those with the same key have not. -/
def Shuffled (members members' : List (String × Json)) : Prop :=
  ∀ key, members.filter (·.1 == key) = members'.filter (·.1 == key)

variable {members members' : List (String × Json)} {member : String × Json}
  {map map' : Std.ExtTreeMap String α} {key name : String}

theorem given?_concat (members : List (String × Json)) (member : String × Json) (key : String) :
    given? (members ++ [member]) key
      = if member.1 = key then some member.2 else given? members key := by
  unfold given?
  rw [List.filter_append]
  by_cases hkey : member.1 = key
  · simp [hkey]
  · simp [hkey]

theorem Shuffled.given? (h : Shuffled members members') (key : String) :
    given? members key = given? members' key := by
  rw [Floor.given?, h key, Floor.given?]

theorem Shuffled.mem (h : Shuffled members members') : member ∈ members ↔ member ∈ members' := by
  have hfilter : ∀ l : List (String × Json), member ∈ l ↔ member ∈ l.filter (·.1 == member.1) := by
    intro l
    simp
  rw [hfilter members, h member.1, ← hfilter members']

/-- The map holds for every key what is given for it. -/
structure MapOf (decode : Json → Except Json.Error α) (members : List (String × Json))
    (map : Std.ExtTreeMap String α) : Prop where
  decodes : ∀ member ∈ members, ∃ a, decode member.2 = .ok a
  lookup : ∀ key a, map[key]? = some a ↔ ∃ j, given? members key = some j ∧ decode j = .ok a

/-- Takes a member into a map. -/
def put (decode : Json → Except Json.Error α) (map : Std.ExtTreeMap String α)
    (member : String × Json) : Except Json.Error (Std.ExtTreeMap String α) :=
  decode member.2 >>= fun a => .ok (map.insert member.1 a)

theorem put_eq_ok : put decode map member = .ok map' ↔
    ∃ a, decode member.2 = .ok a ∧ map' = map.insert member.1 a := by
  simp only [put, bind_eq_ok, Except.ok.injEq, @eq_comm _ _ map']

theorem mapOf_empty : MapOf decode [] ∅ where
  decodes := by simp
  lookup := by simp [given?]

theorem MapOf.concat (h : MapOf decode members map) (hmember : decode member.2 = .ok a) :
    MapOf decode (members ++ [member]) (map.insert member.1 a) where
  decodes := by
    rw [List.forall_mem_append, List.forall_mem_singleton]
    exact ⟨h.decodes, a, hmember⟩
  lookup := by
    intro key b
    rw [Std.ExtTreeMap.getElem?_insert, given?_concat]
    simp only [Std.LawfulEqCmp.compare_eq_iff_eq]
    by_cases hkey : member.1 = key
    · rw [if_pos hkey, if_pos hkey]
      constructor
      · intro hb
        exact ⟨member.2, rfl, hmember.trans (congrArg Except.ok (Option.some.inj hb))⟩
      · intro ⟨j, hj, hb⟩
        rw [← Option.some.inj hj, hmember] at hb
        exact congrArg some (Except.ok.inj hb)
    · rw [if_neg hkey, if_neg hkey]
      exact h.lookup key b

/-- A map is determined by what it holds for every key. -/
theorem map_unique {P : String → α → Prop} (h : ∀ key a, map[key]? = some a ↔ P key a)
    (h' : ∀ key a, map'[key]? = some a ↔ P key a) : map = map' := by
  apply Std.ExtTreeMap.ext_getElem?
  intro key
  apply Option.ext
  intro a
  rw [h, h']

theorem mapOf_of_fold (h : members.foldlM (put decode) ∅ = .ok map) : MapOf decode members map := by
  induction members using List.reverseRecOn generalizing map with
  | nil =>
      cases h
      exact mapOf_empty
  | append_singleton members member ih =>
      rw [List.foldlM_append, bind_eq_ok] at h
      obtain ⟨before, hbefore, hlast⟩ := h
      rw [List.foldlM_cons, bind_eq_ok] at hlast
      obtain ⟨after, hput, hnil⟩ := hlast
      cases hnil
      obtain ⟨a, ha, hafter⟩ := put_eq_ok.mp hput
      rw [hafter]
      exact (ih hbefore).concat ha

theorem exists_fold (h : ∀ member ∈ members, ∃ a, decode member.2 = .ok a)
    (start : Std.ExtTreeMap String α) : ∃ map, members.foldlM (put decode) start = .ok map := by
  induction members generalizing start with
  | nil => exact ⟨start, rfl⟩
  | cons member rest ih =>
      rw [List.forall_mem_cons] at h
      obtain ⟨a, ha⟩ := h.1
      obtain ⟨map, hmap⟩ := ih h.2 (start.insert member.1 a)
      refine ⟨map, ?_⟩
      rw [List.foldlM_cons, bind_eq_ok]
      exact ⟨_, put_eq_ok.mpr ⟨a, ha, rfl⟩, hmap⟩

/-- An object is decoded member by member, and the last one given for a key is kept. -/
theorem mapOfJson_eq_ok : mapOfJson decode j = .ok map ↔
    ∃ members, j = .object members none ∧ MapOf decode members map := by
  constructor
  · intro h
    unfold mapOfJson at h
    split at h
    · next members stop =>
      obtain ⟨map', hmembers, hclose⟩ := bind_eq_ok.mp h
      obtain ⟨hstop, hmap⟩ := close_eq_ok.mp hclose
      rw [hstop, hmap]
      exact ⟨members, rfl, mapOf_of_fold hmembers⟩
    · exact absurd h refuse_ne_ok
  · intro ⟨members, hj, hmap⟩
    obtain ⟨map', hmembers⟩ := exists_fold hmap.decodes ∅
    rw [hj, map_unique hmap.lookup (mapOf_of_fold hmembers).lookup]
    exact bind_eq_ok.mpr ⟨map', hmembers, rfl⟩

theorem MapOf.shuffle (h : MapOf decode members map) (hshuffled : Shuffled members members') :
    MapOf decode members' map where
  decodes := by
    intro member hmember
    exact h.decodes member (hshuffled.mem.mpr hmember)
  lookup := by
    intro key a
    rw [h.lookup, hshuffled.given?]

/-! ### The members of a floor -/

/-- What has been found of the member with this name. -/
def Field (decode : Json → Except Json.Error α) (members : List (String × Json)) (name : String) :
    Option α → Prop
  | none => ∀ member ∈ members, member.1 ≠ name
  | some a => ∃ j, (name, j) ∈ members ∧ decode j = .ok a

variable {found : Option α} {p q : Parts} {f : Floor}

theorem field_nil : Field decode [] name found ↔ found = none := by
  cases found with
  | none => simp [Field]
  | some a => simp [Field]

/-- A member with another name is of no account. -/
theorem field_concat_of_ne (h : key ≠ name) :
    Field decode (members ++ [(key, j)]) name found ↔ Field decode members name found := by
  cases found with
  | none =>
      rw [Field, Field, List.forall_mem_append, List.forall_mem_singleton]
      exact and_iff_left h
  | some a => simp [Field, Ne.symm h]

theorem field_concat_self (h : ∀ member ∈ members, member.1 ≠ name) :
    Field decode (members ++ [(name, j)]) name found ↔ ∃ a, found = some a ∧ decode j = .ok a := by
  have hnew : ∀ j', (name, j') ∉ members := by
    intro j' hmem
    exact h _ hmem rfl
  cases found with
  | none => simp [Field]
  | some a => simp [Field, hnew]

/-- The members so far are known and different, and each of them has been decoded. -/
structure Gathered (members : List (String × Json)) (p : Parts) : Prop where
  once : (members.map (·.1)).Nodup
  known : ∀ member ∈ members, member.1 ∈ ["labels", "values", "inbox"]
  labels : Field (mapOfJson indexOfJson) members "labels" p.labels
  values : Field (mapOfJson Value.ofJson) members "values" p.values
  inbox : Field (listOfJson Value.ofJson) members "inbox" p.inbox

/-- One more member is added to the parts, which do not have it yet. -/
inductive Added (p : Parts) : String × Json → Parts → Prop
  | labels {j : Json} {labels : Std.ExtTreeMap String Nat} (hnew : p.labels = none)
      (hj : mapOfJson indexOfJson j = .ok labels) :
      Added p ("labels", j) { p with labels := some labels }
  | values {j : Json} {values : Std.ExtTreeMap String Value} (hnew : p.values = none)
      (hj : mapOfJson Value.ofJson j = .ok values) :
      Added p ("values", j) { p with values := some values }
  | inbox {j : Json} {inbox : List Value} (hnew : p.inbox = none)
      (hj : listOfJson Value.ofJson j = .ok inbox) :
      Added p ("inbox", j) { p with inbox := some inbox }

/-- What is there already is not decoded again. -/
theorem ifNew_eq_ok {found : Option α} {x : Except Json.Error Parts} :
    (if found.isSome then .error .shape else x) = .ok q ↔ found = none ∧ x = .ok q := by
  cases found with
  | none => simp
  | some a => simp

theorem add_eq_ok : p.add member = .ok q ↔ Added p member q := by
  constructor
  · intro h
    unfold Parts.add at h
    split at h
    · obtain ⟨hnew, hadd⟩ := ifNew_eq_ok.mp h
      obtain ⟨labels, hj, hq⟩ := bind_eq_ok.mp hadd
      cases hq
      exact .labels hnew hj
    · obtain ⟨hnew, hadd⟩ := ifNew_eq_ok.mp h
      obtain ⟨values, hj, hq⟩ := bind_eq_ok.mp hadd
      cases hq
      exact .values hnew hj
    · obtain ⟨hnew, hadd⟩ := ifNew_eq_ok.mp h
      obtain ⟨inbox, hj, hq⟩ := bind_eq_ok.mp hadd
      cases hq
      exact .inbox hnew hj
    · cases h
  · intro h
    cases h with
    | labels hnew hj | values hnew hj | inbox hnew hj =>
        exact ifNew_eq_ok.mpr ⟨hnew, bind_eq_ok.mpr ⟨_, hj, rfl⟩⟩

theorem gathered_nil : Gathered [] p ↔ p = {} := by
  constructor
  · intro ⟨_, _, hlabels, hvalues, hinbox⟩
    obtain ⟨labels, values, inbox⟩ := p
    cases field_nil.mp hlabels
    cases field_nil.mp hvalues
    cases field_nil.mp hinbox
    rfl
  · intro hp
    rw [hp]
    exact ⟨List.nodup_nil, by simp, by simp [Field], by simp [Field], by simp [Field]⟩

/-- A member that has been gathered was added to what had been gathered before it. -/
theorem gathered_concat :
    Gathered (members ++ [member]) q ↔ ∃ p, Gathered members p ∧ Added p member q := by
  obtain ⟨key, j⟩ := member
  have honce : ((members ++ [(key, j)]).map (·.1)).Nodup ↔
      (members.map (·.1)).Nodup ∧ ∀ member ∈ members, member.1 ≠ key := by
    rw [List.map_append, List.map_singleton, List.nodup_append]
    simp
  constructor
  · intro ⟨hnodup, hknown, hlabels, hvalues, hinbox⟩
    obtain ⟨hbefore, hnew⟩ := honce.mp hnodup
    rw [List.forall_mem_append, List.forall_mem_singleton] at hknown
    obtain ⟨hknown, hkey⟩ := hknown
    obtain ⟨labels, values, inbox⟩ := q
    simp only [List.mem_cons, List.not_mem_nil, or_false] at hkey
    rcases hkey with rfl | rfl | rfl
    · obtain ⟨a, rfl, ha⟩ := (field_concat_self hnew).mp hlabels
      exact ⟨⟨none, values, inbox⟩, ⟨hbefore, hknown, hnew,
        (field_concat_of_ne (by decide)).mp hvalues, (field_concat_of_ne (by decide)).mp hinbox⟩,
        .labels rfl ha⟩
    · obtain ⟨a, rfl, ha⟩ := (field_concat_self hnew).mp hvalues
      exact ⟨⟨labels, none, inbox⟩, ⟨hbefore, hknown,
        (field_concat_of_ne (by decide)).mp hlabels, hnew,
        (field_concat_of_ne (by decide)).mp hinbox⟩, .values rfl ha⟩
    · obtain ⟨a, rfl, ha⟩ := (field_concat_self hnew).mp hinbox
      exact ⟨⟨labels, values, none⟩, ⟨hbefore, hknown,
        (field_concat_of_ne (by decide)).mp hlabels,
        (field_concat_of_ne (by decide)).mp hvalues, hnew⟩, .inbox rfl ha⟩
  · intro ⟨p, ⟨hbefore, hknown, hlabels, hvalues, hinbox⟩, hadded⟩
    have hall : ∀ hkey : key ∈ ["labels", "values", "inbox"],
        ∀ member ∈ members ++ [(key, j)], member.1 ∈ ["labels", "values", "inbox"] := by
      intro hkey
      rw [List.forall_mem_append, List.forall_mem_singleton]
      exact ⟨hknown, hkey⟩
    cases hadded with
    | labels hnew hj =>
        rw [hnew] at hlabels
        exact ⟨honce.mpr ⟨hbefore, hlabels⟩, hall (by decide),
          (field_concat_self hlabels).mpr ⟨_, rfl, hj⟩,
          (field_concat_of_ne (by decide)).mpr hvalues,
          (field_concat_of_ne (by decide)).mpr hinbox⟩
    | values hnew hj =>
        rw [hnew] at hvalues
        exact ⟨honce.mpr ⟨hbefore, hvalues⟩, hall (by decide),
          (field_concat_of_ne (by decide)).mpr hlabels,
          (field_concat_self hvalues).mpr ⟨_, rfl, hj⟩,
          (field_concat_of_ne (by decide)).mpr hinbox⟩
    | inbox hnew hj =>
        rw [hnew] at hinbox
        exact ⟨honce.mpr ⟨hbefore, hinbox⟩, hall (by decide),
          (field_concat_of_ne (by decide)).mpr hlabels,
          (field_concat_of_ne (by decide)).mpr hvalues,
          (field_concat_self hinbox).mpr ⟨_, rfl, hj⟩⟩

theorem fold_add_eq_ok : members.foldlM Parts.add {} = .ok p ↔ Gathered members p := by
  induction members using List.reverseRecOn generalizing p with
  | nil =>
      rw [gathered_nil]
      exact ⟨fun h => (Except.ok.inj h).symm, fun h => congrArg Except.ok h.symm⟩
  | append_singleton members member ih =>
      rw [gathered_concat, List.foldlM_append, bind_eq_ok]
      simp only [ih, List.foldlM_cons, List.foldlM_nil, bind_pure, add_eq_ok]

/-- An object is a floor if all of its members can be gathered. -/
theorem ofJson_object_eq_ok : ofJson (.object members stop) = .ok f ↔
    stop = none ∧ ∃ p, Gathered members p ∧ f = p.floor := by
  have hfold : ofJson (.object members stop)
      = members.foldlM Parts.add {} >>= fun p => close p.floor stop := rfl
  rw [hfold, bind_eq_ok]
  simp only [fold_add_eq_ok, close_eq_ok]
  constructor
  · intro ⟨p, hp, hstop, hf⟩
    exact ⟨hstop, p, hp, hf⟩
  · intro ⟨hstop, p, hp, hf⟩
    exact ⟨p, hp, hstop, hf⟩

/-! ### What is accepted -/

theorem exists_listOfJson : (∃ l, listOfJson decode j = .ok l) ↔
    ∃ items, j = .array items none ∧ ∀ item ∈ items, ∃ a, decode item = .ok a := by
  have hitems : ∀ items : List Json,
      (∃ l, List.Forall₂ (fun item a => decode item = .ok a) items l) ↔
        ∀ item ∈ items, ∃ a, decode item = .ok a := by
    intro items
    induction items with
    | nil => simp
    | cons item rest ih =>
        simp only [List.forall₂_cons_left_iff, List.forall_mem_cons, ← ih]
        constructor
        · intro ⟨_, a, l, ha, hl, _⟩
          exact ⟨⟨a, ha⟩, l, hl⟩
        · intro ⟨⟨a, ha⟩, l, hl⟩
          exact ⟨_, a, l, ha, hl, rfl⟩
  simp only [listOfJson_eq_ok, ← hitems]
  constructor
  · intro ⟨l, items, hj, hl⟩
    exact ⟨items, hj, l, hl⟩
  · intro ⟨items, hj, l, hl⟩
    exact ⟨l, items, hj, hl⟩

theorem exists_mapOfJson : (∃ map, mapOfJson decode j = .ok map) ↔
    ∃ entries, j = .object entries none ∧ ∀ entry ∈ entries, ∃ a, decode entry.2 = .ok a := by
  constructor
  · intro ⟨map, hmap⟩
    obtain ⟨entries, hj, hentries⟩ := mapOfJson_eq_ok.mp hmap
    exact ⟨entries, hj, hentries.decodes⟩
  · intro ⟨entries, hj, hdecodes⟩
    obtain ⟨map, hmap⟩ := exists_fold hdecodes ∅
    exact ⟨map, mapOfJson_eq_ok.mpr ⟨entries, hj, mapOf_of_fold hmap⟩⟩

/-- If no name is repeated there is at most one member with a name. -/
theorem member_unique (honce : (members.map (·.1)).Nodup) (h : (name, j) ∈ members)
    (h' : (name, j') ∈ members) : j = j' :=
  (Prod.mk.inj (List.inj_on_of_nodup_map honce h h' rfl)).2

theorem exists_field (honce : (members.map (·.1)).Nodup) :
    (∃ found, Field decode members name found) ↔
      ∀ j, (name, j) ∈ members → ∃ a, decode j = .ok a := by
  constructor
  · intro ⟨found, hfound⟩ j hj
    cases found with
    | none => exact absurd rfl (hfound _ hj)
    | some a =>
        obtain ⟨j', hj', ha⟩ := hfound
        rw [member_unique honce hj hj']
        exact ⟨a, ha⟩
  · intro h
    by_cases hthere : ∃ j, (name, j) ∈ members
    · obtain ⟨j, hj⟩ := hthere
      obtain ⟨a, ha⟩ := h j hj
      exact ⟨some a, j, hj, ha⟩
    · refine ⟨none, ?_⟩
      intro member hmember hname
      rw [← hname] at hthere
      exact hthere ⟨member.2, hmember⟩

/-- The members of an object that is a floor. -/
structure Acceptable (members : List (String × Json)) : Prop where
  known : ∀ member ∈ members, member.1 ∈ ["labels", "values", "inbox"]
  once : (members.map (·.1)).Nodup
  labels : ∀ j, ("labels", j) ∈ members →
    ∃ entries, j = .object entries none ∧ ∀ entry ∈ entries, ∃ n, Index entry.2 n
  values : ∀ j, ("values", j) ∈ members →
    ∃ entries, j = .object entries none ∧ ∀ entry ∈ entries, ∃ v, Item entry.2 v
  inbox : ∀ j, ("inbox", j) ∈ members →
    ∃ items, j = .array items none ∧ ∀ item ∈ items, ∃ v, Item item v

theorem exists_gathered : (∃ p, Gathered members p) ↔ Acceptable members := by
  constructor
  · intro ⟨p, honce, hknown, hlabels, hvalues, hinbox⟩
    refine ⟨hknown, honce, ?_, ?_, ?_⟩
    · intro j hj
      have h := exists_mapOfJson.mp ((exists_field honce).mp ⟨_, hlabels⟩ j hj)
      simpa only [indexOfJson_eq_ok] using h
    · intro j hj
      have h := exists_mapOfJson.mp ((exists_field honce).mp ⟨_, hvalues⟩ j hj)
      simpa only [valueOfJson_eq_ok] using h
    · intro j hj
      have h := exists_listOfJson.mp ((exists_field honce).mp ⟨_, hinbox⟩ j hj)
      simpa only [valueOfJson_eq_ok] using h
  · intro ⟨hknown, honce, hlabels, hvalues, hinbox⟩
    simp only [← indexOfJson_eq_ok, ← exists_mapOfJson] at hlabels
    simp only [← valueOfJson_eq_ok, ← exists_mapOfJson, ← exists_listOfJson] at hvalues hinbox
    obtain ⟨labels, hlabels⟩ := (exists_field honce).mpr hlabels
    obtain ⟨values, hvalues⟩ := (exists_field honce).mpr hvalues
    obtain ⟨inbox, hinbox⟩ := (exists_field honce).mpr hinbox
    exact ⟨⟨labels, values, inbox⟩, honce, hknown, hlabels, hvalues, hinbox⟩

/-! ### What is decoded -/

theorem getD_of_missing {a : α} (h : Field decode members name found)
    (hname : ∀ member ∈ members, member.1 ≠ name) : found.getD a = a := by
  cases found with
  | none => rfl
  | some b =>
      obtain ⟨j, hj, -⟩ := h
      exact absurd rfl (hname _ hj)

theorem getElem?_field {found : Option (Std.ExtTreeMap String α)}
    (honce : (members.map (·.1)).Nodup) (h : Field (mapOfJson decode) members name found)
    (key : String) (a : α) : (found.getD ∅)[key]? = some a ↔
      ∃ entries j, (name, .object entries none) ∈ members ∧ given? entries key = some j ∧
        decode j = .ok a := by
  cases found with
  | none =>
      constructor
      · intro ha
        simp at ha
      · intro ⟨entries, j, hmember, _⟩
        exact absurd rfl (h _ hmember)
  | some map =>
      obtain ⟨j', hj', hmap⟩ := h
      obtain ⟨entries, rfl, hentries⟩ := mapOfJson_eq_ok.mp hmap
      rw [Option.getD_some, hentries.lookup]
      constructor
      · intro ⟨j, hgiven, ha⟩
        exact ⟨entries, j, hj', hgiven, ha⟩
      · intro ⟨entries', j, hmember, hgiven, ha⟩
        cases member_unique honce hj' hmember
        exact ⟨j, hgiven, ha⟩

/-- The floor holds what the members say. -/
structure Faithful (members : List (String × Json)) (f : Floor) : Prop where
  /-- A label is on the tile that is given for it last, -/
  labels : ∀ key n, f.labels[key]? = some n ↔
    ∃ entries j, ("labels", .object entries none) ∈ members ∧ given? entries key = some j ∧
      Index j n
  /-- the value of a key is the one that is given for it last, -/
  values : ∀ key v, f.values[key]? = some v ↔
    ∃ entries j, ("values", .object entries none) ∈ members ∧ given? entries key = some j ∧
      Item j v
  /-- and the inbox has the values of the items in their order. -/
  inbox : ∀ items, ("inbox", .array items none) ∈ members → List.Forall₂ Item items f.inbox
  /-- What is missing is empty. -/
  missing : ((∀ member ∈ members, member.1 ≠ "labels") → f.labels = ∅) ∧
    ((∀ member ∈ members, member.1 ≠ "values") → f.values = ∅) ∧
    ((∀ member ∈ members, member.1 ≠ "inbox") → f.inbox = [])

theorem Gathered.faithful (h : Gathered members p) : Faithful members p.floor where
  labels := by
    intro key n
    simp only [← indexOfJson_eq_ok]
    exact getElem?_field h.once h.labels key n
  values := by
    intro key v
    simp only [← valueOfJson_eq_ok]
    exact getElem?_field h.once h.values key v
  inbox := by
    intro items hitems
    have hfield := h.inbox
    show List.Forall₂ Item items (p.inbox.getD [])
    cases hinbox : p.inbox with
    | none =>
        rw [hinbox] at hfield
        exact absurd rfl (hfield _ hitems)
    | some l =>
        rw [hinbox] at hfield
        obtain ⟨j, hj, hl⟩ := hfield
        rw [← member_unique h.once hitems hj] at hl
        obtain ⟨items', heq, hall⟩ := listOfJson_eq_ok.mp hl
        cases heq
        exact hall.imp fun _ _ => valueOfJson_eq_ok.mp
  missing := ⟨getD_of_missing h.labels, getD_of_missing h.values, getD_of_missing h.inbox⟩

/-! ### The order of the members -/

theorem Field.congr (h : Field decode members name found)
    (hmem : ∀ j, (name, j) ∈ members ↔ (name, j) ∈ members') :
    Field decode members' name found := by
  cases found with
  | none =>
      intro member hmember hname
      rw [← hname] at h hmem
      exact h member ((hmem member.2).mpr hmember) rfl
  | some a =>
      obtain ⟨j, hj, ha⟩ := h
      exact ⟨j, (hmem j).mp hj, ha⟩

/-- The members of a floor may come in any order. -/
theorem Gathered.perm (h : Gathered members p) (hperm : members.Perm members') :
    Gathered members' p where
  once := (hperm.map _).nodup_iff.mp h.once
  known := by
    intro member hmember
    exact h.known member (hperm.mem_iff.mpr hmember)
  labels := h.labels.congr fun _ => hperm.mem_iff
  values := h.values.congr fun _ => hperm.mem_iff
  inbox := h.inbox.congr fun _ => hperm.mem_iff

theorem mapOfJson_shuffle {entries entries' : List (String × Json)} (h : Shuffled entries entries')
    (hmap : mapOfJson decode (.object entries none) = .ok map) :
    mapOfJson decode (.object entries' none) = .ok map := by
  obtain ⟨_, heq, hentries⟩ := mapOfJson_eq_ok.mp hmap
  cases heq
  exact mapOfJson_eq_ok.mpr ⟨entries', rfl, hentries.shuffle h⟩

/-- A member may be exchanged for another one that is decoded alike. -/
theorem Field.exchange {before after : List (String × Json)}
    (h : Field decode (before ++ (key, j) :: after) name found)
    (hdecode : ∀ a, decode j = .ok a → decode j' = .ok a) :
    Field decode (before ++ (key, j') :: after) name found := by
  cases found with
  | none =>
      rw [Field, List.forall_mem_append, List.forall_mem_cons] at h ⊢
      exact h
  | some a =>
      obtain ⟨i, hi, ha⟩ := h
      rw [List.mem_append, List.mem_cons] at hi
      rcases hi with hi | hi | hi
      · exact ⟨i, by simp [hi], ha⟩
      · cases hi
        exact ⟨j', by simp, hdecode a ha⟩
      · exact ⟨i, by simp [hi], ha⟩

/-- The entries of a map may change places, those with the same key excepted. -/
theorem Gathered.shuffle {before after entries entries' : List (String × Json)}
    (h : Gathered (before ++ (name, .object entries none) :: after) p)
    (hshuffled : Shuffled entries entries') :
    Gathered (before ++ (name, .object entries' none) :: after) p where
  once := by
    have honce := h.once
    rw [List.map_append, List.map_cons] at honce ⊢
    exact honce
  known := by
    have hknown := h.known
    rw [List.forall_mem_append, List.forall_mem_cons] at hknown ⊢
    exact hknown
  labels := h.labels.exchange fun _ => mapOfJson_shuffle hshuffled
  values := h.values.exchange fun _ => mapOfJson_shuffle hshuffled
  inbox := by
    refine h.inbox.exchange ?_
    intro l hl
    obtain ⟨items, heq, -⟩ := listOfJson_eq_ok.mp hl
    cases heq

/-! ### Faithful or refused -/

/-- What the members say leaves no choice. -/
theorem Faithful.unique {g : Floor} (hmembers : Acceptable members) (hf : Faithful members f)
    (hg : Faithful members g) : f = g := by
  have hlabels : f.labels = g.labels := map_unique hf.labels hg.labels
  have hvalues : f.values = g.values := map_unique hf.values hg.values
  have hinbox : f.inbox = g.inbox := by
    by_cases hthere : ∃ j, ("inbox", j) ∈ members
    · obtain ⟨j, hj⟩ := hthere
      obtain ⟨items, rfl, -⟩ := hmembers.inbox j hj
      exact items_unique (hf.inbox items hj) (hg.inbox items hj)
    · have hmissing : ∀ member ∈ members, member.1 ≠ "inbox" := by
        intro member hmember hname
        exact hthere ⟨member.2, hname ▸ hmember⟩
      rw [hf.missing.2.2 hmissing, hg.missing.2.2 hmissing]
  calc f = ⟨f.labels, f.values, f.inbox⟩ := rfl
    _ = ⟨g.labels, g.values, g.inbox⟩ := by rw [hlabels, hvalues, hinbox]
    _ = g := rfl

theorem exists_ofJson_object :
    (∃ f, ofJson (.object members none) = .ok f) ↔ Acceptable members := by
  rw [← exists_gathered]
  constructor
  · intro ⟨f, hf⟩
    obtain ⟨-, p, hp, -⟩ := ofJson_object_eq_ok.mp hf
    exact ⟨p, hp⟩
  · intro ⟨p, hp⟩
    exact ⟨p.floor, ofJson_object_eq_ok.mpr ⟨rfl, p, hp, rfl⟩⟩

theorem ofJson_object_iff_faithful :
    ofJson (.object members none) = .ok f ↔ Acceptable members ∧ Faithful members f := by
  constructor
  · intro h
    obtain ⟨-, p, hp, rfl⟩ := ofJson_object_eq_ok.mp h
    exact ⟨exists_gathered.mp ⟨p, hp⟩, hp.faithful⟩
  · intro ⟨hmembers, hf⟩
    obtain ⟨p, hp⟩ := exists_gathered.mpr hmembers
    rw [hf.unique hmembers hp.faithful]
    exact ofJson_object_eq_ok.mpr ⟨rfl, p, hp, rfl⟩

/-- If what has been gathered of one object can be gathered of another, both are the same floor. -/
theorem ofJson_object_of_gathered (hgathered : ∀ p, Gathered members p → Gathered members' p)
    (h : ofJson (.object members none) = .ok f) : ofJson (.object members' none) = .ok f := by
  obtain ⟨-, p, hp, hf⟩ := ofJson_object_eq_ok.mp h
  exact ofJson_object_eq_ok.mpr ⟨rfl, p, hgathered p hp, hf⟩

theorem Shuffled.symm (h : Shuffled members members') : Shuffled members' members :=
  fun key => (h key).symm

/--
**A floor is decoded faithfully or refused.**  An object is a floor if its members are acceptable,
and the floor is what they say and nothing else.  The members may come in any order, and the entries
of a map as well, as long as those with the same key keep theirs.  All this holds of an object that
is read from a text, whose numbers are integers if they are written as such.
-/
theorem decoded_or_refused (members : List (String × Json)) :
    ((∃ f, ofJson (.object members none) = .ok f) ↔ Acceptable members) ∧
    (∀ f, ofJson (.object members none) = .ok f ↔ Acceptable members ∧ Faithful members f) ∧
    (∀ members', members.Perm members' → ∀ f,
      ofJson (.object members none) = .ok f ↔ ofJson (.object members' none) = .ok f) ∧
    (∀ before name entries entries' after,
      members = before ++ (name, .object entries none) :: after → Shuffled entries entries' →
      ∀ f, ofJson (.object members none) = .ok f ↔
        ofJson (.object (before ++ (name, .object entries' none) :: after) none) = .ok f) ∧
    (∀ s, Json.read s = (.object members none, none) →
      read s = ofJson (.object members none)) ∧
    (∀ negative cs n rest, n.natAbs < unsignedBound →
      (Json.Number.read negative cs = (.integer n, some rest) ↔
        ∃ ds, Json.Number.Literal negative n ds ∧ cs = ds ++ rest ∧ Json.Number.Ended rest)) := by
  refine ⟨exists_ofJson_object, fun f => ofJson_object_iff_faithful, ?_, ?_, ?_, ?_⟩
  · intro members' hperm f
    constructor
    · exact ofJson_object_of_gathered fun p hp => hp.perm hperm
    · exact ofJson_object_of_gathered fun p hp => hp.perm hperm.symm
  · intro before name entries entries' after hmembers hshuffled f
    rw [hmembers]
    constructor
    · exact ofJson_object_of_gathered fun p hp => hp.shuffle hshuffled
    · exact ofJson_object_of_gathered fun p hp => hp.shuffle hshuffled.symm
  · intro s hs
    unfold read Json.decode
    rw [hs]
    exact bind_pure _
  · intro negative cs n rest hfits
    exact Json.Number.read_eq_integer hfits

/-- A number is replaced by the least one, and a string is left alone. -/
def tiles : List (String × Json) :=
  [("0", .integer 1), ("0", .integer (-9223372036854775808)), ("1", .string ",")]

/-- The greatest numbers that there are, and a digit in quotes. -/
def brimful : List (String × Json) :=
  [("values", .object tiles none),
    ("inbox", .array [.integer 9223372036854775807, .string "7"] none),
    ("labels", .object [("z", .integer 18446744073709551615)] none)]

/-- The document `{"inbox":["7"]}`. -/
def quotedDigit : String := "\x7b\"inbox\":[\"7\"]\x7d"

theorem item_least : Item (.integer (-9223372036854775808)) (.int Int64.minValue) :=
  .int Int64.minValue

theorem inbox_brimful : List.Forall₂ Item [.integer 9223372036854775807, .string "7"]
    [.int Int64.maxValue, .letter '7'] :=
  .cons (.int Int64.maxValue) (.cons (.letter '7') .nil)

theorem index_greatest : Index (.integer 18446744073709551615) 18446744073709551615 :=
  .intro (by decide)

theorem acceptable_brimful : Acceptable brimful := by
  refine ⟨by simp [brimful], by simp [brimful], ?_, ?_, ?_⟩
  · intro j hj
    refine ⟨[("z", .integer 18446744073709551615)], by simpa [brimful] using hj, ?_⟩
    rw [List.forall_mem_singleton]
    exact ⟨_, index_greatest⟩
  · intro j hj
    refine ⟨tiles, by simpa [brimful] using hj, ?_⟩
    simp only [tiles, List.forall_mem_cons]
    exact ⟨⟨_, .int 1⟩, ⟨_, item_least⟩, ⟨_, .letter ','⟩, by simp⟩
  · intro j hj
    refine ⟨_, by simpa [brimful] using hj, ?_⟩
    simp only [List.forall_mem_cons]
    exact ⟨⟨_, .int Int64.maxValue⟩, ⟨_, .letter '7'⟩, by simp⟩

theorem shuffled_tiles : Shuffled tiles (("1", .string ",") :: tiles.take 2) := by
  intro key
  by_cases hkey : key = "1"
  · subst hkey
    rfl
  · simp [tiles, List.filter_cons, Ne.symm hkey]

/-- The last entry of a key counts, which has to stay behind the first one. -/
theorem brimful_decoded :
    (∃ f, ofJson (.object brimful none) = .ok f ∧
      f.values["0"]? = some (.int Int64.minValue) ∧
      f.labels["z"]? = some 18446744073709551615 ∧
      f.inbox = [.int Int64.maxValue, .letter '7'] ∧
      ofJson (.object brimful.reverse none) = .ok f ∧
      ofJson (.object (("values", .object (("1", .string ",") :: tiles.take 2) none) ::
        brimful.tail) none) = .ok f) ∧
    read quotedDigit = ofJson (.object [("inbox", .array [.string "7"] none)] none) ∧
    Json.Number.read true "9223372036854775808]".toList
      = (.integer (-9223372036854775808), some [']']) := by
  obtain ⟨hexists, hfloor, hperm, hshuffle, -, hnumber⟩ := decoded_or_refused brimful
  obtain ⟨f, hf⟩ := hexists.mpr acceptable_brimful
  obtain ⟨-, hfaithful⟩ := (hfloor f).mp hf
  have hzero : f.values["0"]? = some (.int Int64.minValue) :=
    (hfaithful.values "0" _).mpr ⟨tiles, _, by simp [brimful], rfl, item_least⟩
  have hz : f.labels["z"]? = some 18446744073709551615 :=
    (hfaithful.labels "z" _).mpr ⟨[("z", _)], _, by simp [brimful], rfl, index_greatest⟩
  have hinbox : f.inbox = [.int Int64.maxValue, .letter '7'] := by
    have hitems := hfaithful.inbox [.integer 9223372036854775807, .string "7"] (by simp [brimful])
    exact items_unique hitems inbox_brimful
  refine ⟨⟨f, hf, hzero, hz, hinbox, (hperm _ (List.reverse_perm _).symm f).mp hf,
    (hshuffle [] "values" tiles _ _ rfl shuffled_tiles f).mp hf⟩, ?_, ?_⟩
  · have htext : Json.read quotedDigit
        = (.object [("inbox", .array [.string "7"] none)] none, none) := by
      cbv
    exact (decoded_or_refused _).2.2.2.2.1 _ htext
  · refine (hnumber true _ _ _ (by decide)).mpr ⟨"9223372036854775808".toList, ?_, rfl, ?_⟩
    · exact ⟨⟨by simp, by simp⟩, by simp, by decide, by decide⟩
    · simp [Json.Number.Ended]

end Floor

end Mailroom
