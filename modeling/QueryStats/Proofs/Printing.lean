import QueryStats.Json.Printer
import QueryStats.Proofs.JsonText

/-!
# What is printed is JSON

The printer writes a value as one of its JSON texts (`Numberless.isText`), so that the reader reads
it back.  Numbers are left out here: a value that tells of texts only holds none.
-/

namespace QueryStats.Json

/-- Whether there is no number in a value. -/
inductive Numberless : Json → Prop where
  | null : Numberless .null
  | bool (b : Bool) : Numberless (.bool b)
  | string (s : String) : Numberless (.string s)
  | array {items : List Json} : (∀ j ∈ items, Numberless j) → Numberless (.array items)
  | object {members : List (String × Json)} : (∀ m ∈ members, Numberless m.2) →
      Numberless (.object members)

/-! ## Strings -/

/-- The characters without a letter of their own are written by their numbers. -/
theorem ofHex?_hexDigits {n : Nat} (h : n < 0x20) :
    ofHex? ['0', '0', hexDigit (n / 16), hexDigit (n % 16)] = some n := by
  revert n
  decide

/-- Whether a character is written by a letter. -/
def HasLetter (c : Char) : Prop := ∃ e, (e, c) ∈ escapes ∧ c ≠ '/'

theorem escapeChar_of_mem_escapes {e c : Char} (h : (e, c) ∈ escapes) (hc : c ≠ '/') :
    escapeChar c = ['\\', e] := by
  have hletters : ∀ p ∈ escapes, p.2 ≠ '/' → escapeChar p.2 = ['\\', p.1] := by decide
  exact hletters (e, c) h hc

theorem escapeChar_of_not_hasLetter {c : Char} (h : ¬HasLetter c) : escapeChar c =
    if c.toNat < 0x20 then
      ['\\', 'u', '0', '0', hexDigit (c.toNat / 16), hexDigit (c.toNat % 16)]
    else [c] := by
  have hne {d : Char} (hd : HasLetter d) : c ≠ d := fun hcd => h (hcd ▸ hd)
  rw [escapeChar, if_neg (hne ⟨'\x22', by decide⟩), if_neg (hne ⟨'\\', by decide⟩),
    if_neg (hne ⟨'b', by decide⟩), if_neg (hne ⟨'f', by decide⟩), if_neg (hne ⟨'n', by decide⟩),
    if_neg (hne ⟨'r', by decide⟩), if_neg (hne ⟨'t', by decide⟩)]

theorem isCharText_escapeChar (c : Char) : IsCharText (escapeChar c) c := by
  by_cases h : HasLetter c
  · obtain ⟨e, he, hc⟩ := h
    rw [escapeChar_of_mem_escapes he hc]
    exact .letter he
  · have hne {d : Char} (hd : HasLetter d) : c ≠ d := fun hcd => h (hcd ▸ hd)
    rw [escapeChar_of_not_hasLetter h]
    split
    · next hn =>
      have hv : c.toNat.isValidChar := Or.inl (Nat.lt_trans hn (by decide))
      have hc := IsCharText.number (ofHex?_hexDigits hn) hv
      rwa [Char.ofNat_toNat] at hc
    · next hn =>
      exact .plain (Nat.not_lt.1 hn) (hne ⟨'\x22', by decide⟩) (hne ⟨'\\', by decide⟩)

theorem isBody_escaped (cs : List Char) : IsBody (cs.flatMap escapeChar) cs := by
  induction cs with
  | nil => exact .nil
  | cons c cs ih => exact .cons (isCharText_escapeChar c) ih

theorem isString_quote (s : String) : IsString (quote s) s := by
  have h := IsString.mk (isBody_escaped s.toList)
  rwa [String.ofList_toList] at h

/-! ## Values -/

theorem isSpaces_newline (depth : Nat) : IsSpaces (newline depth) := by
  intro c hc
  rcases List.mem_cons.1 hc with rfl | hc
  · rfl
  · rw [List.eq_of_mem_replicate hc]
    rfl

theorem isSpaces_nil : IsSpaces [] := fun _ h => nomatch h

/-- An item of a list, on a line of its own. -/
def itemLine (depth : Nat) (j : Json) : List Char := newline depth ++ prettyAt depth j

theorem itemLine_append_prettyItems (depth : Nat) (x : Json) (xs : List Json) :
    itemLine depth x ++ prettyItems depth xs =
      [','].intercalate ((x :: xs).map (itemLine depth)) := by
  induction xs generalizing x with
  | nil => simp [prettyItems]
  | cons y ys ih =>
    have hcut : [','].intercalate ((x :: y :: ys).map (itemLine depth)) =
        itemLine depth x ++ ',' :: [','].intercalate ((y :: ys).map (itemLine depth)) := rfl
    rw [hcut, ← ih, prettyItems]
    simp [itemLine]

theorem prettyAt_array_cons (depth : Nat) (x : Json) (xs : List Json) :
    prettyAt depth (.array (x :: xs)) =
      '[' :: ([','].intercalate ((x :: xs).map (itemLine (depth + 1))) ++
        (newline depth ++ [']'])) := by
  rw [← itemLine_append_prettyItems, prettyAt]
  simp [itemLine]

/-- A member of an object, on a line of its own. -/
def memberLine (depth : Nat) (m : String × Json) : MemberText where
  nameText := newline depth ++ quote m.1
  name := m.1
  valueText := ' ' :: prettyAt depth m.2
  value := m.2

theorem text_memberLine (depth : Nat) (m : String × Json) :
    (memberLine depth m).text = newline depth ++ prettyMember depth m := by
  obtain ⟨name, value⟩ := m
  simp [memberLine, MemberText.text, prettyMember]

theorem memberLine_append_prettyMembers (depth : Nat) (m : String × Json)
    (ms : List (String × Json)) :
    (memberLine depth m).text ++ prettyMembers depth ms =
      [','].intercalate (((m :: ms).map (memberLine depth)).map MemberText.text) := by
  induction ms generalizing m with
  | nil => simp [prettyMembers]
  | cons m' ms ih =>
    have hcut : [','].intercalate (((m :: m' :: ms).map (memberLine depth)).map MemberText.text) =
        (memberLine depth m).text ++
          ',' :: [','].intercalate (((m' :: ms).map (memberLine depth)).map MemberText.text) := rfl
    rw [hcut, ← ih, prettyMembers, text_memberLine depth m']
    simp

theorem prettyAt_object_cons (depth : Nat) (m : String × Json) (ms : List (String × Json)) :
    prettyAt depth (.object (m :: ms)) =
      '\x7b' :: ([','].intercalate
          (((m :: ms).map (memberLine (depth + 1))).map MemberText.text) ++
        (newline depth ++ ['\x7d'])) := by
  rw [← memberLine_append_prettyMembers, text_memberLine, prettyAt]
  simp

theorem isText_itemLines {items : List Json} {depth : Nat} {a : List Char}
    (h : ∀ j ∈ items, IsText (prettyAt depth j) j) (ha : IsSpaces a) :
    IsText ('[' :: ([','].intercalate (items.map (itemLine depth)) ++ (a ++ [']'])))
      (.array items) := by
  have hitems : ∀ x ∈ items.map fun j => (itemLine depth j, j), IsText x.1 x.2 := by
    intro x hx
    obtain ⟨j, hj, rfl⟩ := List.mem_map.1 hx
    have ht := (h j hj).spaced (isSpaces_newline depth) isSpaces_nil
    rwa [List.append_nil] at ht
  have ht := IsText.array hitems ha
  simpa only [List.map_map, Function.comp_def, List.map_id'] using ht

theorem isText_memberLines {members : List (String × Json)} {depth : Nat} {a : List Char}
    (h : ∀ m ∈ members, IsText (prettyAt depth m.2) m.2) (ha : IsSpaces a) :
    IsText ('\x7b' :: ([','].intercalate ((members.map (memberLine depth)).map MemberText.text) ++
      (a ++ ['\x7d']))) (.object members) := by
  have hnames : ∀ m ∈ members.map (memberLine depth), IsName m.nameText m.name := by
    intro m hm
    obtain ⟨member, -, rfl⟩ := List.mem_map.1 hm
    have hn := IsName.mk (isSpaces_newline depth) (isString_quote member.1) isSpaces_nil
    rwa [List.append_nil] at hn
  have hvalues : ∀ m ∈ members.map (memberLine depth), IsText m.valueText m.value := by
    intro m hm
    obtain ⟨member, hmember, rfl⟩ := List.mem_map.1 hm
    have ht := (h member hmember).spaced (a := [' ']) (by decide) isSpaces_nil
    rwa [List.append_nil] at ht
  have ht := IsText.object hnames hvalues ha
  have hm : members.map (fun m => (memberLine depth m).member) = members := List.map_id' members
  simpa only [List.map_map, Function.comp_def, hm] using ht

/-- A value without numbers is printed as a JSON text of it. -/
theorem Numberless.isText {j : Json} (h : Numberless j) (depth : Nat) :
    IsText (prettyAt depth j) j := by
  induction h generalizing depth with
  | null =>
    rw [prettyAt]
    exact .word (by decide) (List.all_eq_true.1 rfl) rfl
  | bool b =>
    rw [prettyAt]
    cases b <;> exact .word (by decide) (List.all_eq_true.1 rfl) rfl
  | string s =>
    rw [prettyAt]
    exact .string (isString_quote s)
  | @array items _ ih =>
    cases items with
    | nil =>
      rw [prettyAt]
      exact @IsText.array [] [] (fun _ h => nomatch h) isSpaces_nil
    | cons x xs =>
      rw [prettyAt_array_cons]
      exact isText_itemLines (fun y hy => ih y hy (depth + 1)) (isSpaces_newline depth)
  | @object members _ ih =>
    cases members with
    | nil =>
      rw [prettyAt]
      exact @IsText.object [] [] (fun _ h => nomatch h) (fun _ h => nomatch h) isSpaces_nil
    | cons m ms =>
      rw [prettyAt_object_cons]
      exact isText_memberLines (fun m hm => ih m hm (depth + 1)) (isSpaces_newline depth)

end QueryStats.Json
