import Mathlib.Data.List.Basic
import QueryStats.Json.Reader

/-!
# JSON texts

The texts that JSON has for a value, as rules (`IsText`): a word, a string, a list or an object,
with white space around any of them.  The reader reads each such text as its value
(`IsText.ofText?`).  A text is cut into tokens from the front; only a word needs to be followed by a
character that does not belong to it, which is what `Delimited` says of the rest.
-/

namespace QueryStats.Json

/-! ## The rules -/

/-- Whether a text consists of blanks, tabs and line ends. -/
def IsSpaces (t : List Char) : Prop := ∀ c ∈ t, isSpace c = true

instance (t : List Char) : Decidable (IsSpaces t) := List.decidableBAll _ t

/-- The letters that stand for a character after a backslash. -/
def escapes : List (Char × Char) :=
  [('\x22', '\x22'), ('\\', '\\'), ('/', '/'), ('b', '\x08'), ('f', '\x0c'), ('n', '\n'),
    ('r', '\r'), ('t', '\t')]

/-- The ways to write a character in a string: as itself, by a letter, or by the hexadecimal digits
of its number or of the two halves of it. -/
inductive IsCharText : List Char → Char → Prop where
  | plain {c : Char} : 0x20 ≤ c.toNat → c ≠ '\x22' → c ≠ '\\' → IsCharText [c] c
  | letter {e c : Char} : (e, c) ∈ escapes → IsCharText ['\\', e] c
  | number {d₁ d₂ d₃ d₄ : Char} {n : Nat} : ofHex? [d₁, d₂, d₃, d₄] = some n → n.isValidChar →
      IsCharText ['\\', 'u', d₁, d₂, d₃, d₄] (Char.ofNat n)
  | halves {d₁ d₂ d₃ d₄ e₁ e₂ e₃ e₄ c : Char} {high low : Nat} :
      ofHex? [d₁, d₂, d₃, d₄] = some high → ofHex? [e₁, e₂, e₃, e₄] = some low →
      ¬high.isValidChar → ofSurrogates? high low = some c →
      IsCharText ['\\', 'u', d₁, d₂, d₃, d₄, '\\', 'u', e₁, e₂, e₃, e₄] c

/-- The ways to write the characters of a string between its quotes. -/
inductive IsBody : List Char → List Char → Prop where
  | nil : IsBody [] []
  | cons {t ts : List Char} {c : Char} {cs : List Char} :
      IsCharText t c → IsBody ts cs → IsBody (t ++ ts) (c :: cs)

/-- The ways to write a string. -/
inductive IsString : List Char → String → Prop where
  | mk {t cs : List Char} : IsBody t cs → IsString ('\x22' :: (t ++ ['\x22'])) (String.ofList cs)

/-- The ways to write the name of a member, with white space around it. -/
inductive IsName : List Char → String → Prop where
  | mk {a t b : List Char} {s : String} : IsSpaces a → IsString t s → IsSpaces b →
      IsName (a ++ (t ++ b)) s

/-- A member of an object as it is written: the text and the name, and those of the value. -/
structure MemberText where
  nameText : List Char
  name : String
  valueText : List Char
  value : Json

def MemberText.text (m : MemberText) : List Char := m.nameText ++ ':' :: m.valueText

def MemberText.member (m : MemberText) : String × Json := (m.name, m.value)

/-- The JSON texts of a value. -/
inductive IsText : List Char → Json → Prop where
  | word {t : List Char} {j : Json} : t ≠ [] → (∀ c ∈ t, isWordChar c = true) →
      ofWord? t = some j → IsText t j
  | string {t : List Char} {s : String} : IsString t s → IsText t (.string s)
  | array {items : List (List Char × Json)} {a : List Char} : (∀ x ∈ items, IsText x.1 x.2) →
      IsSpaces a →
      IsText ('[' :: ([','].intercalate (items.map Prod.fst) ++ (a ++ [']'])))
        (.array (items.map Prod.snd))
  | object {members : List MemberText} {a : List Char} : (∀ m ∈ members, IsName m.nameText m.name) →
      (∀ m ∈ members, IsText m.valueText m.value) → IsSpaces a →
      IsText ('\x7b' :: ([','].intercalate (members.map MemberText.text) ++ (a ++ ['\x7d'])))
        (.object (members.map MemberText.member))
  | spaced {a t b : List Char} {j : Json} : IsSpaces a → IsText t j → IsSpaces b →
      IsText (a ++ (t ++ b)) j

/-! ## Strings -/

theorem IsCharText.head_ne {t : List Char} {c : Char} (h : IsCharText t c) (rest : List Char) :
    (t ++ rest).head? ≠ some '\x22' := by
  cases h with
  | plain _ hq _ => simpa using hq
  | letter => simp
  | number => simp
  | halves => simp

theorem IsCharText.readChar? {t : List Char} {c : Char} (h : IsCharText t c) (rest : List Char) :
    readChar? (t ++ rest) = some (c, rest) := by
  cases h with
  | plain hn _ hb =>
    have hlt : ¬c.toNat < 0x20 := Nat.not_lt.2 hn
    rw [List.cons_append, Json.readChar?]
    · simp [hb, hlt]
    · exact fun _ _ _ _ _ h _ => hb h
    · exact fun _ _ h _ => hb h
  | letter he =>
    have hcases : ∀ p ∈ escapes, p.1 ≠ 'u' ∧ unescape? p.1 = some p.2 := by decide
    obtain ⟨hu, hc⟩ := hcases _ he
    rw [List.cons_append, List.cons_append, Json.readChar?]
    · rw [hc]
      rfl
    · exact fun _ _ _ _ _ h _ => hu h
  | number hn hv =>
    simp [Json.readChar?, hn, hv]
  | halves hh hl hv hs =>
    simp [Json.readChar?, hh, hl, hv, hs]

theorem IsBody.readChars? {t cs : List Char} (h : IsBody t cs) (before rest : List Char) :
    readChars? before (t ++ '\x22' :: rest) = some (cs.reverse ++ before, rest) := by
  induction h generalizing before with
  | nil =>
    rw [List.nil_append, Json.readChars?, if_pos (by rfl)]
    rfl
  | @cons t ts c cs hc _ ih =>
    rw [List.append_assoc, Json.readChars?, if_neg (hc.head_ne _)]
    split
    · next hn =>
      rw [hc.readChar?] at hn
      cases hn
    · next d rest' hs =>
      rw [hc.readChar?, Option.some.injEq, Prod.mk.injEq] at hs
      obtain ⟨rfl, rfl⟩ := hs
      rw [ih, List.reverse_cons, List.append_assoc]
      rfl

/-! ## Tokens -/

/-- Whether no word goes on at the front of a text. -/
def Delimited (t : List Char) : Prop := ∀ c ∈ t.head?, isWordChar c = false

theorem delimited_cons {c : Char} (h : isWordChar c = false) (t : List Char) :
    Delimited (c :: t) := by
  intro d hd
  obtain rfl := Option.some.inj hd
  exact h

theorem Delimited.append {s t : List Char} (hs : Delimited s) (ht : Delimited t) :
    Delimited (s ++ t) := by
  cases s with
  | nil => exact ht
  | cons c s => exact delimited_cons (hs c rfl) _

theorem isWordChar_of_isSpace {c : Char} (h : isSpace c = true) : isWordChar c = false := by
  simp only [isSpace, Bool.or_eq_true, decide_eq_true_eq] at h
  rcases h with ((rfl | rfl) | rfl) | rfl <;> rfl

theorem isWordChar_of_isMark {c : Char} (h : isMark c = true) : isWordChar c = false := by
  simp only [isMark, Bool.or_eq_true, decide_eq_true_eq] at h
  rcases h with ((((rfl | rfl) | rfl) | rfl) | rfl) | rfl <;> rfl

theorem IsSpaces.delimited {a : List Char} (h : IsSpaces a) : Delimited a := fun c hc =>
  isWordChar_of_isSpace (h c (List.mem_of_mem_head? hc))

/-- Whether a text is cut into the given tokens, whatever follows it. -/
def Cuts (t : List Char) (ks : List Token) : Prop :=
  ∀ ⦃rest ts⦄, tokens? rest = some ts → tokens? (t ++ rest) = some (ks ++ ts)

/-- Whether a text is cut into the given tokens if no word goes on after it. -/
def Lexes (t : List Char) (ks : List Token) : Prop :=
  ∀ ⦃rest ts⦄, Delimited rest → tokens? rest = some ts → tokens? (t ++ rest) = some (ks ++ ts)

theorem Cuts.lexes {t : List Char} {ks : List Token} (h : Cuts t ks) : Lexes t ks :=
  fun _ _ _ => @h _ _

theorem Cuts.append {s t : List Char} {ks ls : List Token} (hs : Cuts s ks) (ht : Cuts t ls) :
    Cuts (s ++ t) (ks ++ ls) := by
  intro rest ts h
  rw [List.append_assoc, List.append_assoc]
  exact hs (ht h)

theorem Cuts.append_lexes {s t : List Char} {ks ls : List Token} (hs : Cuts s ks)
    (ht : Lexes t ls) : Lexes (s ++ t) (ks ++ ls) := by
  intro rest ts hd h
  rw [List.append_assoc, List.append_assoc]
  exact hs (ht hd h)

theorem Lexes.append {s t : List Char} {ks ls : List Token} (hs : Lexes s ks) (ht : Lexes t ls)
    (hd : Delimited t) : Lexes (s ++ t) (ks ++ ls) := by
  intro rest ts hr h
  rw [List.append_assoc, List.append_assoc]
  exact hs (hd.append hr) (ht hr h)

theorem cuts_spaces {a : List Char} (h : IsSpaces a) : Cuts a [] := by
  intro rest ts hr
  induction a with
  | nil => exact hr
  | cons c a ih =>
    rw [IsSpaces, List.forall_mem_cons] at h
    rw [List.cons_append, tokens?, if_pos h.1]
    exact ih h.2

theorem cuts_mark {c : Char} (h : isMark c = true) : Cuts [c] [.mark c] := by
  intro rest ts hr
  have hs : ¬isSpace c = true := by
    simp only [isMark, Bool.or_eq_true, decide_eq_true_eq] at h
    rcases h with ((((rfl | rfl) | rfl) | rfl) | rfl) | rfl <;> decide
  rw [List.singleton_append, tokens?, if_neg hs, if_pos h, hr]
  rfl

theorem IsString.cuts {t : List Char} {s : String} (h : IsString t s) : Cuts t [.string s] := by
  intro rest ts hr
  obtain ⟨hb⟩ := h
  next t cs =>
  rw [List.cons_append, List.append_assoc, tokens?, if_neg (by decide), if_neg (by decide),
    if_pos rfl]
  split
  · next hn =>
    rw [List.singleton_append, hb.readChars?] at hn
    cases hn
  · next ds rest' hs =>
    rw [List.singleton_append, hb.readChars?, Option.some.injEq, Prod.mk.injEq] at hs
    obtain ⟨rfl, rfl⟩ := hs
    rw [hr, List.append_nil, List.reverse_reverse]
    rfl

theorem IsName.cuts {t : List Char} {s : String} (h : IsName t s) : Cuts t [.string s] := by
  obtain ⟨ha, ht, hb⟩ := h
  exact (cuts_spaces ha).append (ht.cuts.append (cuts_spaces hb))

/-- A word is cut off where the text goes on with no word. -/
theorem lexes_word {t : List Char} {j : Json} (hne : t ≠ [])
    (ht : ∀ c ∈ t, isWordChar c = true) (hj : ofWord? t = some j) : Lexes t [.word j] := by
  intro rest ts hd hr
  obtain ⟨htake, hdrop⟩ :
      rest.takeWhile isWordChar = [] ∧ rest.dropWhile isWordChar = rest := by
    cases rest with
    | nil => exact ⟨rfl, rfl⟩
    | cons c rest =>
      have hc := hd c rfl
      simp [hc]
  obtain ⟨c, u, rfl⟩ := List.exists_cons_of_ne_nil hne
  rw [List.forall_mem_cons] at ht
  have hword {d : Char} (h : isWordChar d = false) : c ≠ d := by
    rintro rfl
    rw [h] at ht
    exact Bool.false_ne_true ht.1
  have hspace : ¬isSpace c = true := fun h => hword (isWordChar_of_isSpace h) rfl
  have hmark : ¬isMark c = true := fun h => hword (isWordChar_of_isMark h) rfl
  rw [List.cons_append, tokens?, if_neg hspace, if_neg hmark, if_neg (hword (by decide)),
    List.takeWhile_append_of_pos ht.2, htake, List.append_nil, hj,
    List.dropWhile_append_of_pos ht.2, hdrop, hr]
  rfl

/-! ## Values from tokens -/

/-- Whether some tokens are read as a value wherever one may stand. -/
def Reads (ks : List Token) (j : Json) : Prop :=
  ∀ e, e = .value ∨ e = .firstItem → ∀ open_ more,
    ofTokens? e open_ (ks ++ more) = ofTokens? (.after j) open_ more

theorem reads_word (j : Json) : Reads [.word j] j := by
  rintro e (rfl | rfl) outer more <;> simp [ofTokens?]

theorem reads_string (s : String) : Reads [.string s] (.string s) := by
  rintro e (rfl | rfl) outer more <;> simp [ofTokens?]

/-- Whether some tokens are read as the items of a list up to its end, from the first one or from a
later one on. -/
def ReadsItems (ks : List Token) (items : List Json) : Prop :=
  ∀ e, e = .value ∨ e = .firstItem → ∀ before outer more,
    ofTokens? e (.array before :: outer) (ks ++ .mark ']' :: more) =
      ofTokens? (.after (.array (before.reverse ++ items))) outer more

theorem Reads.one {ks : List Token} {j : Json} (h : Reads ks j) : ReadsItems ks [j] := by
  intro e he before outer more
  rw [h e he, ofTokens?, List.reverse_cons]

theorem Reads.cons {ks ls : List Token} {j : Json} {items : List Json} (h : Reads ks j)
    (hs : ReadsItems ls items) : ReadsItems (ks ++ .mark ',' :: ls) (j :: items) := by
  intro e he before outer more
  rw [List.append_assoc, h e he, List.cons_append, ofTokens?, hs .value (Or.inl rfl),
    List.reverse_cons, List.append_assoc]
  rfl

theorem ReadsItems.array {ks : List Token} {items : List Json} (h : ReadsItems ks items) :
    Reads (.mark '[' :: (ks ++ [.mark ']'])) (.array items) := by
  rintro e (rfl | rfl) outer more <;>
    simp [ofTokens?, h .firstItem (Or.inr rfl)]

theorem reads_array_nil : Reads [.mark '[', .mark ']'] (.array []) := by
  rintro e (rfl | rfl) outer more <;> simp [ofTokens?]

/-- Whether some tokens are read as the members of an object up to its end, from the first one or
from a later one on. -/
def ReadsMembers (ks : List Token) (members : List (String × Json)) : Prop :=
  (∀ outer more, ofTokens? .firstMember outer (ks ++ .mark '\x7d' :: more) =
      ofTokens? (.after (.object members)) outer more) ∧
    ∀ before outer more, ofTokens? (.name before) outer (ks ++ .mark '\x7d' :: more) =
      ofTokens? (.after (.object (before.reverse ++ members))) outer more

theorem Reads.oneMember {ks : List Token} {j : Json} (h : Reads ks j) (name : String) :
    ReadsMembers (.string name :: .mark ':' :: ks) [(name, j)] := by
  constructor
  · intro outer more
    simp [ofTokens?, h .value (Or.inl rfl)]
  · intro before outer more
    simp [ofTokens?, h .value (Or.inl rfl)]

theorem Reads.consMember {ks ls : List Token} {j : Json} {members : List (String × Json)}
    (h : Reads ks j) (name : String) (hs : ReadsMembers ls members) :
    ReadsMembers (.string name :: .mark ':' :: (ks ++ .mark ',' :: ls)) ((name, j) :: members) := by
  constructor
  · intro outer more
    simp [ofTokens?, h .value (Or.inl rfl), hs.2]
  · intro before outer more
    simp [ofTokens?, h .value (Or.inl rfl), hs.2]

theorem ReadsMembers.object {ks : List Token} {members : List (String × Json)}
    (h : ReadsMembers ks members) :
    Reads (.mark '\x7b' :: (ks ++ [.mark '\x7d'])) (.object members) := by
  rintro e (rfl | rfl) outer more <;> simp [ofTokens?, h.1]

theorem reads_object_nil : Reads [.mark '\x7b', .mark '\x7d'] (.object []) := by
  rintro e (rfl | rfl) outer more <;> simp [ofTokens?]

/-! ## The reader accepts every text -/

/-- Whether a text is cut into tokens that are read as a value. -/
def LexesTo (t : List Char) (j : Json) : Prop := ∃ ks, Lexes t ks ∧ Reads ks j

/-- The items of a list, with commas between them. -/
theorem exists_readsItems {items : List (List Char × Json)} (hne : items ≠ [])
    (h : ∀ x ∈ items, LexesTo x.1 x.2) :
    ∃ ks, Lexes ([','].intercalate (items.map Prod.fst)) ks ∧
      ReadsItems ks (items.map Prod.snd) := by
  induction items with
  | nil => exact absurd rfl hne
  | cons x items ih =>
    rw [List.forall_mem_cons] at h
    obtain ⟨ks, hks, hx⟩ := h.1
    cases items with
    | nil =>
      simpa using ⟨ks, hks, hx.one⟩
    | cons y items =>
      obtain ⟨ls, hls, hr⟩ := ih (List.cons_ne_nil y items) h.2
      refine ⟨ks ++ .mark ',' :: ls, ?_, hx.cons hr⟩
      have hrest := (cuts_mark (c := ',') rfl).append_lexes hls
      exact hks.append hrest (delimited_cons rfl _)

/-- The members of an object, with commas between them. -/
theorem exists_readsMembers {members : List MemberText} (hne : members ≠ [])
    (hn : ∀ m ∈ members, IsName m.nameText m.name)
    (h : ∀ m ∈ members, LexesTo m.valueText m.value) :
    ∃ ks, Lexes ([','].intercalate (members.map MemberText.text)) ks ∧
      ReadsMembers ks (members.map MemberText.member) := by
  induction members with
  | nil => exact absurd rfl hne
  | cons m members ih =>
    rw [List.forall_mem_cons] at h hn
    obtain ⟨ks, hks, hm⟩ := h.1
    have hfirst : Lexes m.text (.string m.name :: .mark ':' :: ks) :=
      hn.1.cuts.append_lexes ((cuts_mark (c := ':') rfl).append_lexes hks)
    cases members with
    | nil =>
      simpa using ⟨_, hfirst, hm.oneMember m.name⟩
    | cons m' members =>
      obtain ⟨ls, hls, hr⟩ := ih (List.cons_ne_nil m' members) hn.2 h.2
      refine ⟨_, ?_, hm.consMember m.name hr⟩
      have hrest := (cuts_mark (c := ',') rfl).append_lexes hls
      exact hfirst.append hrest (delimited_cons rfl _)

theorem lexesTo_array {items : List (List Char × Json)} {a : List Char}
    (h : ∀ x ∈ items, LexesTo x.1 x.2) (ha : IsSpaces a) :
    LexesTo ('[' :: ([','].intercalate (items.map Prod.fst) ++ (a ++ [']'])))
      (.array (items.map Prod.snd)) := by
  have hend : Cuts (a ++ [']']) [.mark ']'] := (cuts_spaces ha).append (cuts_mark rfl)
  have hstart : Cuts ['['] [.mark '['] := cuts_mark rfl
  by_cases hne : items = []
  · subst hne
    exact ⟨_, (hstart.append hend).lexes, reads_array_nil⟩
  · obtain ⟨ks, hks, hr⟩ := exists_readsItems hne h
    have hd : Delimited (a ++ [']']) := ha.delimited.append (delimited_cons rfl _)
    exact ⟨_, hstart.append_lexes (hks.append hend.lexes hd), hr.array⟩

theorem lexesTo_object {members : List MemberText} {a : List Char}
    (hn : ∀ m ∈ members, IsName m.nameText m.name)
    (h : ∀ m ∈ members, LexesTo m.valueText m.value) (ha : IsSpaces a) :
    LexesTo ('\x7b' :: ([','].intercalate (members.map MemberText.text) ++ (a ++ ['\x7d'])))
      (.object (members.map MemberText.member)) := by
  have hend : Cuts (a ++ ['\x7d']) [.mark '\x7d'] := (cuts_spaces ha).append (cuts_mark rfl)
  have hstart : Cuts ['\x7b'] [.mark '\x7b'] := cuts_mark rfl
  by_cases hne : members = []
  · subst hne
    exact ⟨_, (hstart.append hend).lexes, reads_object_nil⟩
  · obtain ⟨ks, hks, hr⟩ := exists_readsMembers hne hn h
    have hd : Delimited (a ++ ['\x7d']) := ha.delimited.append (delimited_cons rfl _)
    exact ⟨_, hstart.append_lexes (hks.append hend.lexes hd), hr.object⟩

theorem IsText.lexesTo {t : List Char} {j : Json} (h : IsText t j) : LexesTo t j := by
  induction h with
  | word hne ht hj => exact ⟨_, lexes_word hne ht hj, reads_word _⟩
  | string hs => exact ⟨_, hs.cuts.lexes, reads_string _⟩
  | array _ ha ih => exact lexesTo_array ih ha
  | object hn _ ha ih => exact lexesTo_object hn ih ha
  | spaced ha _ hb ih =>
    obtain ⟨ks, hks, hr⟩ := ih
    refine ⟨ks, ?_, hr⟩
    have hb' := hks.append (cuts_spaces hb).lexes hb.delimited
    rw [List.append_nil] at hb'
    exact (cuts_spaces ha).append_lexes hb'

/-- Every JSON text of a value is read as that value. -/
theorem IsText.ofText? {t : List Char} {j : Json} (h : IsText t j) :
    ofText? (String.ofList t) = some j := by
  obtain ⟨ks, hks, hr⟩ := h.lexesTo
  have ht := @hks [] [] (fun _ h => nomatch h) (by rw [tokens?])
  rw [List.append_nil] at ht
  rw [Json.ofText?, String.toList_ofList, ht, Option.bind_some, hr .value (Or.inl rfl), ofTokens?]

end QueryStats.Json
