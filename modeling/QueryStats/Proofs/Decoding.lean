import Mathlib.Data.List.Forall2
import QueryStats.Json.Shape

/-!
# Changes that a reader does not see

A reader of records passes over members that it does not know, and takes a member that may be
missing for `null`.  `Harmless` lists the changes of a value that make use of that, at any place
that a reader of the given shape comes to.  A reader is `Stable` when it reads a value as before
after one such change; lists, nullable values and records are, when what they are made of is.
-/

namespace QueryStats.Json

/-- What a reader expects of a value. -/
inductive Shape where
  | text
  | list (item : Shape)
  | nullable (value : Shape)
  /-- A record, with the names and the shapes of its members. -/
  | record (members : List (String × Shape))

/-- Whether `null` is expected too. -/
def Shape.isNullable : Shape → Bool
  | nullable _ => true
  | _ => false

/-- A change of a value that a reader of its shape does not see. -/
inductive Harmless : Shape → Json → Json → Prop where
  /-- A member with an unknown name is added. -/
  | extra {members : List (String × Shape)} {before rest : List (String × Json)} {name : String}
      (j : Json) : name ∉ members.map Prod.fst →
      Harmless (.record members) (.object (before ++ rest)) (.object (before ++ (name, j) :: rest))
  /-- The value of a member with an unknown name is changed. -/
  | ignored {members : List (String × Shape)} {before rest : List (String × Json)} {name : String}
      (j j' : Json) : name ∉ members.map Prod.fst →
      Harmless (.record members) (.object (before ++ (name, j) :: rest))
        (.object (before ++ (name, j') :: rest))
  /-- A member that is `null` and may be is left out; its name stands in the object once. -/
  | absent {members : List (String × Shape)} {before rest : List (String × Json)} {name : String}
      {s : Shape} : (name, .nullable s) ∈ members → name ∉ (before ++ rest).map Prod.fst →
      Harmless (.record members) (.object (before ++ (name, .null) :: rest))
        (.object (before ++ rest))
  /-- The value of a member is changed. -/
  | member {members : List (String × Shape)} {before rest : List (String × Json)} {name : String}
      {s : Shape} {j j' : Json} : (name, s) ∈ members → Harmless s j j' →
      Harmless (.record members) (.object (before ++ (name, j) :: rest))
        (.object (before ++ (name, j') :: rest))
  /-- The value of a member is changed in a record that is written as a list. -/
  | place {ms ms' : List (String × Shape)} {before rest : List Json} {name : String} {s : Shape}
      {j j' : Json} : before.length = ms.length → Harmless s j j' →
      Harmless (.record (ms ++ (name, s) :: ms')) (.array (before ++ j :: rest))
        (.array (before ++ j' :: rest))
  /-- An item of a list is changed. -/
  | item {s : Shape} {before rest : List Json} {j j' : Json} : Harmless s j j' →
      Harmless (.list s) (.array (before ++ j :: rest)) (.array (before ++ j' :: rest))
  /-- A value that may be `null` and is not is changed. -/
  | value {s : Shape} {j j' : Json} : Harmless s j j' → Harmless (.nullable s) j j'

/-- What is changed is a list or an object, and stays one. -/
theorem Harmless.ne_null {s : Shape} {j j' : Json} (h : Harmless s j j') :
    j ≠ .null ∧ j' ≠ .null := by
  induction h with
  | value _ ih => exact ih
  | _ => exact ⟨nofun, nofun⟩

/-- Whether a reader reads a value as before after a change that it does not see. -/
def Stable {α : Type} (r : Reader α) (s : Shape) : Prop :=
  ∀ ⦃j j' a⦄, Harmless s j j' → r j = .ok a → r j' = .ok a

/-! ## Values -/

section Values

variable {α β : Type} {r : Reader α} {s : Shape}

theorem bind_eq_ok {x : Except ShapeError α} {f : α → Except ShapeError β} {b : β} :
    x >>= f = .ok b ↔ ∃ a, x = .ok a ∧ f a = .ok b := by
  cases x with
  | error e => exact ⟨nofun, fun ⟨_, h, _⟩ => nomatch h⟩
  | ok a => exact ⟨fun h => ⟨a, rfl, h⟩, fun ⟨_, h, hf⟩ => Except.ok.inj h ▸ hf⟩

theorem stable_readString : Stable readString .text := fun _ _ _ h => nomatch h

theorem Stable.bind (h : Stable r s) (f : α → Except ShapeError β) :
    Stable (fun j => r j >>= f) s := by
  intro j j' b hj hr
  obtain ⟨a, ha, hb⟩ := bind_eq_ok.1 hr
  exact bind_eq_ok.2 ⟨a, h hj ha, hb⟩

theorem readNullable_of_ne_null {j : Json} (h : j ≠ .null) : readNullable r j = some <$> r j := by
  cases j with
  | null => exact absurd rfl h
  | _ => rfl

theorem Stable.readNullable (h : Stable r s) : Stable (readNullable r) (.nullable s) := by
  intro j j' a hj hr
  cases hj with
  | value hj =>
    obtain ⟨hn, hn'⟩ := hj.ne_null
    rw [readNullable_of_ne_null hn] at hr
    rw [readNullable_of_ne_null hn']
    exact h.bind (fun a => .ok (some a)) hj hr

theorem Stable.readList (h : Stable r s) : Stable (readList r) (.list s) := by
  intro j j' as hj hr
  cases hj with
  | @item _ before rest j j' hj =>
    rw [Json.readList, List.mapM_append, List.mapM_cons, bind_eq_ok] at hr
    obtain ⟨bs, hbefore, hr⟩ := hr
    rw [Json.readList, List.mapM_append, List.mapM_cons, hbefore]
    obtain ⟨cs, hcs, hr⟩ := bind_eq_ok.1 hr
    obtain ⟨a, ha, hcs⟩ := bind_eq_ok.1 hcs
    exact bind_eq_ok.2 ⟨bs, rfl, bind_eq_ok.2 ⟨cs, bind_eq_ok.2 ⟨a, h hj ha, hcs⟩, hr⟩⟩

theorem readList_map {f : α → Json} (h : ∀ a, r (f a) = .ok a) (as : List α) :
    Json.readList r (.array (as.map f)) = .ok as := by
  rw [Json.readList]
  induction as with
  | nil => rfl
  | cons a as ih =>
    rw [List.map_cons, List.mapM_cons, h, ih]
    rfl

theorem readNullable_getD {f : α → Json} (hn : ∀ a, f a ≠ .null) (h : ∀ a, r (f a) = .ok a)
    (a : Option α) : Json.readNullable r ((a.map f).getD .null) = .ok a := by
  cases a with
  | none => rfl
  | some a =>
    have hr := readNullable_of_ne_null (r := r) (hn a)
    rw [h] at hr
    exact hr

end Values

/-! ## Records -/

section Records

variable {δ : Type} {slots : List (Slot δ)} {members : List (String × Shape)}

/-- Whether a slot is filled as before after a change that its reader does not see. -/
def Slot.IsStable (slot : Slot δ) (s : Shape) : Prop :=
  ∀ draft, Stable (fun j => slot.fill j draft) s

/-- Whether a slot is that of a member. -/
def Slot.Holds (slot : Slot δ) (m : String × Shape) : Prop :=
  slot.name = m.1 ∧ slot.IsStable m.2

/-- The slots of a record with the given members, which have names of their own. -/
structure Matches (slots : List (Slot δ)) (members : List (String × Shape)) : Prop where
  holds : List.Forall₂ Slot.Holds slots members
  nodup : (members.map Prod.fst).Nodup

theorem fillSlots_append (xs ys : List (Slot δ × Json)) (draft : δ) :
    fillSlots (xs ++ ys) draft = fillSlots xs draft >>= fillSlots ys := by
  induction xs generalizing draft with
  | nil => rfl
  | cons x xs ih =>
    rw [List.cons_append, fillSlots, fillSlots, bind_assoc]
    exact bind_congr fun a => ih a

/-- One value of several is changed. -/
theorem fillSlots_change {slot : Slot δ} {s : Shape} {j j' : Json} {xs ys : List (Slot δ × Json)}
    {draft d : δ} (h : slot.IsStable s) (hj : Harmless s j j')
    (hr : fillSlots (xs ++ (slot, j) :: ys) draft = .ok d) :
    fillSlots (xs ++ (slot, j') :: ys) draft = .ok d := by
  rw [fillSlots_append] at hr ⊢
  obtain ⟨e, he, hr⟩ := bind_eq_ok.1 hr
  obtain ⟨f, hf, hr⟩ := bind_eq_ok.1 hr
  exact bind_eq_ok.2 ⟨e, he, bind_eq_ok.2 ⟨f, h e hj hf, hr⟩⟩

theorem knownMembers_append (slots : List (Slot δ)) (before rest : List (String × Json)) :
    knownMembers slots (before ++ rest) = knownMembers slots before ++ knownMembers slots rest :=
  List.filterMap_append

/-- A member with an unknown name is passed over. -/
theorem knownMembers_cons_of_notMem {name : String} (h : name ∉ slots.map Slot.name) (j : Json)
    (rest : List (String × Json)) : knownMembers slots ((name, j) :: rest) =
      knownMembers slots rest := by
  have hfind : slots.find? (·.name = name) = none := by
    rw [List.find?_eq_none]
    intro slot hslot heq
    exact h (List.mem_map.2 ⟨slot, hslot, of_decide_eq_true heq⟩)
  rw [knownMembers, List.filterMap_cons, hfind]
  rfl

theorem knownMembers_cons_of_find? {name : String} {slot : Slot δ}
    (h : slots.find? (·.name = name) = some slot) (j : Json) (rest : List (String × Json)) :
    knownMembers slots ((name, j) :: rest) = (slot, j) :: knownMembers slots rest := by
  rw [knownMembers, List.filterMap_cons, h]
  rfl

theorem Matches.map_name (h : Matches slots members) :
    slots.map Slot.name = members.map Prod.fst := by
  rw [← List.forall₂_eq_eq_eq, List.forall₂_map_left_iff, List.forall₂_map_right_iff]
  exact h.holds.imp fun _ _ h => h.1

/-- The slot of a member. -/
theorem Matches.find? (h : Matches slots members) {name : String} {s : Shape}
    (hm : (name, s) ∈ members) :
    ∃ slot, slots.find? (·.name = name) = some slot ∧ slot.IsStable s := by
  obtain ⟨hh, hn⟩ := h
  induction hh with
  | nil => exact absurd hm List.not_mem_nil
  | @cons slot m slots members hs _ ih =>
    rw [List.map_cons, List.nodup_cons] at hn
    rcases List.mem_cons.1 hm with rfl | hm
    · exact ⟨slot, List.find?_cons_of_pos (decide_eq_true hs.1), hs.2⟩
    · have hne : slot.name ≠ name := by
        rw [hs.1]
        rintro rfl
        exact hn.1 (List.mem_map.2 ⟨_, hm, rfl⟩)
      obtain ⟨slot', hfind, hst⟩ := ih hm hn.2
      exact ⟨slot', by rw [List.find?_cons_of_neg (by simpa using hne), hfind], hst⟩

/-- A record that is written as a list has the values of its members at their places. -/
theorem Matches.zip {ms ms' : List (String × Shape)} {name : String} {s : Shape}
    (h : Matches slots (ms ++ (name, s) :: ms')) {before : List Json}
    (hlen : before.length = ms.length) : ∃ slot xs, ∃ slots' : List (Slot δ),
      slot.IsStable s ∧
        ∀ j rest, slots.zip (before ++ j :: rest) = xs ++ (slot, j) :: slots'.zip rest := by
  have hfront := (List.forall₂_take_append slots ms _ h.holds).length_eq
  have hback := List.forall₂_drop_append slots ms _ h.holds
  obtain ⟨slot, slots', hslot, -, hdrop⟩ := List.forall₂_cons_right_iff.1 hback
  refine ⟨slot, (slots.take ms.length).zip before, slots', hslot.2, fun j rest => ?_⟩
  have hcut : slots = slots.take ms.length ++ slot :: slots' := by
    rw [← hdrop, List.take_append_drop]
  conv_lhs => rw [hcut]
  rw [List.zip_append (hfront.trans hlen.symm)]
  rfl

/-- The change is that a member is left out. -/
def LeftOut (members : List (String × Shape)) (j j' : Json) : Prop :=
  ∃ before name rest, (∃ s, (name, .nullable s) ∈ members) ∧
    name ∉ (before ++ rest).map Prod.fst ∧
      j = .object (before ++ (name, .null) :: rest) ∧ j' = .object (before ++ rest)

/-- A record is read as before, unless a member is left out. -/
theorem Matches.readRecord (h : Matches slots members) {kind : RecordKind} {empty d : δ}
    {j j' : Json} (hj : Harmless (.record members) j j')
    (hr : readRecord kind slots empty j = .ok d) :
    Json.readRecord kind slots empty j' = .ok d ∨ LeftOut members j j' := by
  cases hj with
  | @extra _ before rest name j hname =>
    left
    rw [← h.map_name] at hname
    rw [Json.readRecord, knownMembers_append, knownMembers_cons_of_notMem hname,
      ← knownMembers_append]
    exact hr
  | @ignored _ before rest name j j' hname =>
    left
    rw [← h.map_name] at hname
    rw [Json.readRecord, knownMembers_append, knownMembers_cons_of_notMem hname] at hr ⊢
    exact hr
  | absent hm hname => exact .inr ⟨_, _, _, ⟨_, hm⟩, hname, rfl, rfl⟩
  | @member _ before rest name s j j' hm hj =>
    left
    obtain ⟨slot, hfind, hst⟩ := h.find? hm
    rw [Json.readRecord, knownMembers_append, knownMembers_cons_of_find? hfind] at hr ⊢
    exact fillSlots_change hst hj hr
  | @place ms ms' before rest name s j j' hlen hj =>
    left
    obtain ⟨slot, xs, slots', hst, hzip⟩ := h.zip hlen
    rw [Json.readRecord, hzip] at hr ⊢
    obtain ⟨e, he, hr⟩ := bind_eq_ok.1 hr
    refine bind_eq_ok.2 ⟨e, fillSlots_change hst hj he, ?_⟩
    simpa only [List.length_append, List.length_cons] using hr

theorem Matches.stable_readRecord (h : Matches slots members)
    (hn : ∀ m ∈ members, m.2.isNullable = false) (kind : RecordKind) (empty : δ) :
    Stable (Json.readRecord kind slots empty) (.record members) := by
  intro j j' d hj hr
  rcases h.readRecord hj hr with hr' | ⟨_, _, _, ⟨s, hm⟩, -⟩
  · exact hr'
  · exact nomatch hn _ hm

theorem stable_readStrings (kind : RecordKind) {names : List String} (h : names.Nodup) :
    Stable (readStrings kind names) (.record (names.map (·, .text))) := by
  refine Matches.stable_readRecord ⟨?_, ?_⟩ ?_ kind []
  · rw [List.forall₂_map_left_iff, List.forall₂_map_right_iff, List.forall₂_same]
    exact fun name _ =>
      ⟨rfl, fun draft => stable_readString.bind fun s => .ok ((name, s) :: draft)⟩
  · rw [List.map_map]
    exact (List.map_id names).symm ▸ h
  · intro m hm
    obtain ⟨name, -, rfl⟩ := List.mem_map.1 hm
    rfl

end Records

/-! ## Records with two members -/

section Pairs

variable {α β : Type} {first : String × Reader α} {second : String × Reader β} {s t : Shape}

/-- The slots of a record with two members. -/
def pairSlots (first : String × Reader α) (second : String × Reader β) :
    List (Slot (Option α × Option β)) :=
  [⟨first.1, fun j draft => (fun a => (some a, draft.2)) <$> first.2 j⟩,
    ⟨second.1, fun j draft => (fun b => (draft.1, some b)) <$> second.2 j⟩]

theorem matches_pairSlots (hne : first.1 ≠ second.1) (hs : Stable first.2 s)
    (ht : Stable second.2 t) :
    Matches (pairSlots first second) [(first.1, s), (second.1, t)] where
  holds := .cons ⟨rfl, fun draft => hs.bind fun a => .ok (some a, draft.2)⟩
    (.cons ⟨rfl, fun draft => ht.bind fun b => .ok (draft.1, some b)⟩ .nil)
  nodup := by simpa using hne

theorem stable_readPair (kind : RecordKind) (hne : first.1 ≠ second.1) (hs : Stable first.2 s)
    (ht : Stable second.2 t) (hsn : s.isNullable = false) (htn : t.isNullable = false) :
    Stable (readPair kind first second) (.record [(first.1, s), (second.1, t)]) :=
  (matches_pairSlots hne hs ht).stable_readRecord (by simp [hsn, htn]) kind (none, none)

theorem readPair_object (kind : RecordKind) {n₁ n₂ : String} {r₁ : Reader α} {r₂ : Reader β}
    {j k : Json} {a : α} {b : β} (hne : n₁ ≠ n₂) (ha : r₁ j = .ok a) (hb : r₂ k = .ok b) :
    readPair kind (n₁, r₁) (n₂, r₂) (.object [(n₁, j), (n₂, k)]) = .ok (some a, some b) := by
  simp [readPair, readRecord, knownMembers, fillSlots, hne, ha, hb, Functor.map, Except.map, bind,
    Except.bind]

/-- Without the second member, what a draft has for it stays, and does not matter. -/
theorem fillSlots_first (first : String × Reader α) (second : String × Reader β)
    {ms : List (String × Json)} (h : second.1 ∉ ms.map Prod.fst) :
    ∃ f : Option α → Except ShapeError (Option α), ∀ a (b : Option β),
      fillSlots (knownMembers (pairSlots first second) ms) (a, b) = (·, b) <$> f a := by
  induction ms with
  | nil => exact ⟨.ok, fun _ _ => rfl⟩
  | cons m ms ih =>
    obtain ⟨name, j⟩ := m
    rw [List.map_cons, List.mem_cons, not_or] at h
    obtain ⟨f, hf⟩ := ih h.2
    by_cases hname : first.1 = name
    · refine ⟨fun _ => first.2 j >>= fun a => f (some a), fun a b => ?_⟩
      have hfind : (pairSlots first second).find? (·.name = name) =
          some ⟨first.1, fun j draft => (fun a => (some a, draft.2)) <$> first.2 j⟩ :=
        List.find?_cons_of_pos (decide_eq_true hname)
      rw [knownMembers_cons_of_find? hfind, fillSlots, map_bind]
      simp only [bind_map_left, hf]
    · refine ⟨f, fun a b => ?_⟩
      rw [knownMembers_cons_of_notMem]
      · exact hf a b
      · simpa [pairSlots] using ⟨Ne.symm hname, Ne.symm h.1⟩

theorem find?_pairSlots (second : String × Reader β) (hne : first.1 ≠ second.1) :
    (pairSlots first second).find? (·.name = second.1) =
      some ⟨second.1, fun j draft => (fun b => (draft.1, some b)) <$> second.2 j⟩ := by
  simp [pairSlots, hne]

/-- A second member that is `null` can be told from a missing one by the draft only. -/
theorem readPair_null (kind : RecordKind) (first : String × Reader α) (r : Reader β)
    {before rest : List (String × Json)} {name : String} (hne : first.1 ≠ name)
    (h : name ∉ (before ++ rest).map Prod.fst) :
    ∃ a : Except ShapeError (Option α),
      readPair kind first (name, readNullable r) (.object (before ++ (name, .null) :: rest)) =
          (·, some none) <$> a ∧
        readPair kind first (name, readNullable r) (.object (before ++ rest)) =
          (·, none) <$> a := by
  have hread (members : List (String × Json)) :
      readPair kind first (name, readNullable r) (.object members) =
        fillSlots (knownMembers (pairSlots first (name, readNullable r)) members) (none, none) :=
    rfl
  rw [List.map_append, List.mem_append, not_or] at h
  obtain ⟨f, hf⟩ := fillSlots_first first (name, readNullable r) h.1
  obtain ⟨g, hg⟩ := fillSlots_first first (name, readNullable r) h.2
  refine ⟨f none >>= g, ?_, ?_⟩
  · have hfind := find?_pairSlots (name, readNullable r) hne
    rw [hread, knownMembers_append, knownMembers_cons_of_find? hfind, fillSlots_append, hf,
      bind_map_left, map_bind]
    exact bind_congr fun a => hg a (some none)
  · rw [hread, knownMembers_append, fillSlots_append, hf, bind_map_left, map_bind]
    exact bind_congr fun a => hg a none

/-- A second member that may be `null` may be missing too. -/
theorem stable_readPair_nullable (kind : RecordKind) (n₁ n₂ : String) {r₁ : Reader α}
    {r₂ : Reader β} (hne : n₁ ≠ n₂) (hs : Stable r₁ s) (ht : Stable r₂ t)
    (hsn : s.isNullable = false) :
    Stable (fun j => (fun d => (d.1, d.2.join)) <$>
        readPair kind (n₁, r₁) (n₂, readNullable r₂) j)
      (.record [(n₁, s), (n₂, .nullable t)]) := by
  intro j j' d hj hr
  obtain ⟨e, he, hd⟩ := bind_eq_ok.1 hr
  have hslots : Matches (pairSlots (n₁, r₁) (n₂, readNullable r₂)) [(n₁, s), (n₂, .nullable t)] :=
    matches_pairSlots hne hs ht.readNullable
  rcases hslots.readRecord hj he with he' | ⟨before, name, rest, ⟨u, hm⟩, hname, rfl, rfl⟩
  · exact bind_eq_ok.2 ⟨e, he', hd⟩
  · obtain rfl : name = n₂ := by
      simp only [List.mem_cons, Prod.mk.injEq, List.not_mem_nil, or_false] at hm
      refine hm.elim (fun h => ?_) And.left
      rw [← h.2] at hsn
      cases hsn
    obtain ⟨a, hnull, hmissing⟩ := readPair_null kind (n₁, r₁) r₂ hne hname
    beta_reduce at hr ⊢
    rw [hnull, Functor.map_map] at hr
    rw [hmissing, Functor.map_map]
    exact hr

end Pairs

end QueryStats.Json
