import QueryStats.Proofs.Pairing
import QueryStats.Proofs.Passing

/-!
# Texts that differ in case and layout

The scan does not tell the case of an ASCII letter, nor one run of white space from another
(`Coarse`).  A `Likeness` says how two texts may differ within these bounds.  Two texts that are
walked in step under a likeness are so when masked (`inStep_mask`); masked texts in step show faces
in step (`inStep_faces`) and stand for texts in step (`inStep_sources`).  Names, which no white
space parts, stand for each other character by character (`forall₂_sources_of_not_blank`).
-/

namespace QueryStats.Query

open Text

/-! ## What the scan does not tell apart -/

theorem toLower_eq_self_or (c : Char) :
    c.toLower = c ∨ ∃ n < 26, c = Char.ofNat (n + 65) ∧ c.toLower = Char.ofNat (n + 97) := by
  by_cases h : c.val ≥ 'A'.val ∧ c.val ≤ 'Z'.val
  · right
    have h₁ : 65 ≤ c.toNat := UInt32.le_iff_toNat_le.1 h.1
    have h₂ : c.toNat ≤ 90 := UInt32.le_iff_toNat_le.1 h.2
    have hc : c = Char.ofNat (c.toNat - 65 + 65) := by
      rw [Nat.sub_add_cancel h₁, Char.ofNat_toNat]
    have hlower : ∀ n < 26, (Char.ofNat (n + 65)).toLower = Char.ofNat (n + 97) := by decide
    refine ⟨c.toNat - 65, by omega, hc, ?_⟩
    conv_lhs => rw [hc]
    exact hlower _ (by omega)
  · exact Or.inl (dif_neg h)

/-- Whether a function of characters does not depend on the case of an ASCII letter. -/
def Caseless {α : Type} (f : Char → α) : Prop := ∀ c, f c.toLower = f c

theorem caseless_of_table {α : Type} {f : Char → α}
    (h : ∀ n < 26, f (Char.ofNat (n + 97)) = f (Char.ofNat (n + 65))) : Caseless f := by
  intro c
  rcases toLower_eq_self_or c with hc | ⟨n, hn, hc, hlower⟩
  · rw [hc]
  · rw [hlower, h n hn, ← hc]

theorem Caseless.congr {α : Type} {f : Char → α} (hf : Caseless f) {c d : Char}
    (h : c.toLower = d.toLower) : f c = f d := by
  rw [← hf c, h, hf d]

theorem caseless_fold : Caseless fold := caseless_of_table (by decide)

theorem caseless_utf8Size : Caseless Char.utf8Size := caseless_of_table (by decide)

theorem caseless_toLower : Caseless Char.toLower := caseless_of_table (by decide)

/-- A sign has no case. -/
theorem eq_iff_of_toLower_eq {c d e : Char} (he : isLetter e = false)
    (h : c.toLower = d.toLower) : c = e ↔ d = e := by
  have hletter : ∀ n < 26, isLetter (Char.ofNat (n + 97)) = true ∧
      isLetter (Char.ofNat (n + 65)) = true := by decide
  have hne {x : Char} (hx : isLetter x = true) : decide (x = e) = false := by
    rw [decide_eq_false_iff_not]
    rintro rfl
    rw [he] at hx
    cases hx
  have hsign : Caseless fun x => decide (x = e) := caseless_of_table fun n hn => by
    rw [hne (hletter n hn).1, hne (hletter n hn).2]
  have := hsign.congr h
  rwa [decide_eq_decide] at this

/-- Bringing a character to lower case makes no sign of it. -/
theorem toLower_eq_iff {c e : Char} (he : isLetter e = false) : c.toLower = e ↔ c = e :=
  eq_iff_of_toLower_eq he (caseless_toLower c)

/-- Whether a test takes all white space for one, and does not depend on the case of a letter. -/
structure Coarse (p : Char → Bool) : Prop where
  caseless : Caseless p
  blank : ∃ v, ∀ c, isBlank c = true → p c = v

/-- Whether white space fails a test that does not depend on the case of a letter. -/
structure Sharp (p : Char → Bool) : Prop where
  caseless : Caseless p
  blank : ∀ c, isBlank c = true → p c = false

theorem Sharp.coarse {p : Char → Bool} (hp : Sharp p) : Coarse p := ⟨hp.caseless, false, hp.blank⟩

theorem Sharp.not {p : Char → Bool} (hp : Sharp p) : Coarse (!p ·) :=
  ⟨fun c => congrArg (!·) (hp.caseless c), true, fun c hc => congrArg (!·) (hp.blank c hc)⟩

theorem Sharp.isBlank_eq_false {p : Char → Bool} (hp : Sharp p) {c : Char} (hc : p c = true) :
    isBlank c = false := by
  rw [← Bool.not_eq_true]
  intro hb
  rw [hp.blank c hb] at hc
  cases hc

theorem coarse_isBlank : Coarse isBlank := ⟨caseless_of_table (by decide), true, fun _ h => h⟩

theorem isAliasChar_of_isBlank {c : Char} (h : isBlank c = true) : isAliasChar c = false :=
  (of_isBreak (isBreak_of_isBlank h)).1.2.2

/-- What passes for no character of an alias but those passes for no white space. -/
theorem sharp_of_isAliasChar {p : Char → Bool} (hc : Caseless p)
    (hp : ∀ {c}, p c = true → isAliasChar c = true) : Sharp p := by
  refine ⟨hc, fun c hb => ?_⟩
  rw [← Bool.not_eq_true]
  intro h
  have := isAliasChar_of_isBlank hb
  rw [hp h] at this
  cases this

theorem sharp_isAliasChar : Sharp isAliasChar :=
  sharp_of_isAliasChar (caseless_of_table (by decide)) id

theorem sharp_isLetter : Sharp isLetter :=
  sharp_of_isAliasChar (caseless_of_table (by decide)) isAliasChar_of_isLetter

theorem sharp_isDigit : Sharp Char.isDigit :=
  sharp_of_isAliasChar (caseless_of_table (by decide)) isAliasChar_of_isDigit

theorem sharp_isNameChar : Sharp isNameChar :=
  sharp_of_isAliasChar (caseless_of_table (by decide)) isAliasChar_of_isNameChar

theorem sharp_isNameStart : Sharp isNameStart :=
  ⟨caseless_of_table (by decide), fun _ hc => isNameStart_eq_false (isAliasChar_of_isBlank hc)⟩

theorem sharp_isFieldChar : Sharp isFieldChar := by
  refine ⟨caseless_of_table (by decide), fun c hc => ?_⟩
  rw [isFieldChar, hc]
  rfl

theorem sharp_isWord : Sharp isWord :=
  ⟨caseless_of_table (by decide +kernel), fun _ hc => (of_isBreak (isBreak_of_isBlank hc)).1.1⟩

theorem sharp_isNamePart : Sharp isNamePart :=
  ⟨caseless_of_table (by decide +kernel), fun _ hc => (of_isBreak (isBreak_of_isBlank hc)).1.2.1⟩

/-- A sign is told from all other characters. -/
theorem sharp_eq {e : Char} (hl : isLetter e = false) (hb : isBlank e = false) :
    Sharp fun c => decide (c = e) where
  caseless c := by
    rw [decide_eq_decide]
    exact toLower_eq_iff hl
  blank c hc := by
    rw [decide_eq_false_iff_not]
    rintro rfl
    rw [hb] at hc
    cases hc

theorem sharp_eq_quote {q : Char} (hq : isQuote q = true) : Sharp fun c => decide (c = q) := by
  refine sharp_eq (isLetter_of_isQuote hq) ?_
  rw [← Bool.not_eq_true]
  intro hb
  rw [isQuote_of_isBlank hb] at hq
  cases hq

/-- A letter of a keyword is told from all other characters but for its case. -/
theorem sharp_fold {k : Char} (hk : k.isLower = true) : Sharp fun c => decide (fold c = k) := by
  refine sharp_of_isAliasChar (fun c => by rw [caseless_fold c]) fun {c} hc => ?_
  apply isAliasChar_of_isLetter
  rw [isLetter, of_decide_eq_true hc, hk]

theorem sharp_toLower {k : Char} (hk : k.isLower = true) :
    Sharp fun c => decide (c.toLower = k) := by
  refine sharp_of_isAliasChar (fun c => by rw [caseless_toLower c]) fun {c} hc => ?_
  apply isAliasChar_of_isLetter
  exact (of_isLower_toLower (by rw [of_decide_eq_true hc, hk])).1

theorem sharp_isParenthesis : Sharp isParenthesis := by
  refine ⟨caseless_of_table (by decide), fun c hc => ?_⟩
  have hopening : Sharp fun c => decide (c = '(') := sharp_eq (by decide) (by decide)
  have hclosing : Sharp fun c => decide (c = ')') := sharp_eq (by decide) (by decide)
  rw [isParenthesis, hopening.blank c hc, hclosing.blank c hc]
  rfl

/-- The run that is open does not depend on the case of a letter. -/
theorem nextQuote_congr {q : Option Char} (hq : NamesQuote q) {c d : Char}
    (h : c.toLower = d.toLower) : nextQuote q c = nextQuote q d := by
  cases q with
  | none =>
    have hquote : isQuote c = isQuote d := by
      have hcaseless : Caseless isQuote := caseless_of_table (by decide)
      exact hcaseless.congr h
    rw [nextQuote, nextQuote, ← hquote]
    split
    · next hc => rw [(eq_iff_of_toLower_eq (isLetter_of_isQuote hc) h).1 rfl]
    · rfl
  | some q =>
    have hiff := eq_iff_of_toLower_eq (isLetter_of_isQuote hq.isQuote) h
    rw [nextQuote, nextQuote]
    by_cases hc : c = q
    · rw [if_pos hc, if_pos (hiff.1 hc)]
    · rw [if_neg hc, if_neg (mt hiff.2 hc)]

theorem namesQuote_some {q : Char} (h : isQuote q = true) : NamesQuote (some q) :=
  fun _ hc => Option.some.inj hc ▸ h

/-- White space opens no run and closes none. -/
theorem nextQuote_of_isBlank {q : Option Char} (hq : NamesQuote q) {c : Char}
    (hc : isBlank c = true) : nextQuote q c = q := by
  have hquote := isQuote_of_isBlank hc
  cases q with
  | none => exact nextQuote_none_of_not_quote hquote
  | some q =>
    refine if_neg ?_
    rintro rfl
    rw [hq.isQuote] at hquote
    cases hquote

/-! ## Likenesses -/

/-- A run of white space. -/
def IsSpace (s : List Char) : Prop := s ≠ [] ∧ ∀ c ∈ s, isBlank c = true

theorem IsSpace.isQuote {s : List Char} (h : IsSpace s) : ∀ c ∈ s, isQuote c = false :=
  fun c hc => isQuote_of_isBlank (h.2 c hc)

theorem IsSpace.quoteAfter {s : List Char} (h : IsSpace s) : quoteAfter none s = none :=
  balanced_of_unquoted h.isQuote

theorem IsSpace.reverse {s : List Char} (h : IsSpace s) : IsSpace s.reverse :=
  ⟨mt List.reverse_eq_nil_iff.1 h.1, fun c hc => h.2 c (List.mem_reverse.1 hc)⟩

/-- How two texts may differ. -/
structure Likeness where
  /-- The characters that stand for each other. -/
  char : Char → Char → Prop
  /-- Whether white space outside quoted runs may be laid out anew. -/
  layout : Prop
  refl : ∀ c, char c c
  toLower_eq : ∀ {c d}, char c d → c.toLower = d.toLower

namespace Likeness

/-- Two texts that differ as a likeness allows, given the quote whose run is open. -/
def text (L : Likeness) : Pairing (Option Char) Char where
  next := nextQuote
  one _ := L.char
  run q a b := (L.layout ∧ q = none) ∧ IsSpace a ∧ IsSpace b
  ne_nil h := ⟨h.2.1.1, h.2.2.1⟩
  foldl_next := by
    rintro q a b ⟨⟨-, rfl⟩, ha, -⟩
    exact ha.quoteAfter

/-- Two cells of masked text that differ as a likeness allows.  In a quoted run both are blanks that
stand for characters of the run, or both are the quote that closes it. -/
def Cells (L : Likeness) : Option Char → Cell → Cell → Prop
  | none, x, y => ∃ c d, L.char c d ∧ x = .plain c ∧ y = .plain d
  | some q, x, y => isQuote q = true ∧ (x = .plain q ∧ y = .plain q ∨
      (x.face = ' ' ∧ y.face = ' ') ∧ Option.Rel (fun c d => L.char c d ∧ c ≠ q) x.source y.source)

/-- Two masked texts that differ as a likeness allows. -/
def masked (L : Likeness) : Pairing (Option Char) Cell where
  next q x := nextQuote q x.face
  one := L.Cells
  run q a b := (L.layout ∧ q = none) ∧ ∃ u v, (IsSpace u ∧ IsSpace v) ∧ a = shown u ∧ b = shown v
  ne_nil := by
    rintro q a b ⟨-, u, v, ⟨hu, hv⟩, rfl, rfl⟩
    exact ⟨by simpa [shown] using hu.1, by simpa [shown] using hv.1⟩
  foldl_next := by
    rintro q a b ⟨⟨-, rfl⟩, u, v, ⟨hu, hv⟩, rfl, rfl⟩
    rw [shown, List.foldl_map]
    exact hu.quoteAfter

/-- Two texts that look the same to the scan. -/
def look : Pairing Unit Char where
  next _ _ := ()
  one _ c d := c.toLower = d.toLower
  run _ a b := IsSpace a ∧ IsSpace b
  ne_nil h := ⟨h.1.1, h.2.1⟩
  foldl_next _ := rfl

variable {L : Likeness}

@[simp] theorem next_text (q : Option Char) (c : Char) : L.text.next q c = nextQuote q c := rfl

@[simp] theorem next_masked (q : Option Char) (x : Cell) :
    L.masked.next q x = nextQuote q x.face := rfl

theorem foldl_next_masked (q : Option Char) (t : List Cell) :
    t.foldl L.masked.next q = quoteAfter q (faces t) := by
  rw [quoteAfter, faces, List.foldl_map]
  rfl

theorem Cells.toLower_eq {q : Option Char} {x y : Cell} (h : L.Cells q x y) :
    x.face.toLower = y.face.toLower := by
  cases q with
  | none =>
    obtain ⟨c, d, hcd, rfl, rfl⟩ := h
    exact L.toLower_eq hcd
  | some q =>
    obtain ⟨-, ⟨rfl, rfl⟩ | ⟨⟨hx, hy⟩, -⟩⟩ := h
    · rfl
    · rw [hx, hy]

theorem Cells.source {q : Option Char} {x y : Cell} (h : L.Cells q x y) :
    Option.Rel L.char x.source y.source := by
  cases q with
  | none =>
    obtain ⟨c, d, hcd, rfl, rfl⟩ := h
    exact .some hcd
  | some q =>
    obtain ⟨-, ⟨rfl, rfl⟩ | ⟨-, hs⟩⟩ := h
    · exact .some (L.refl q)
    · generalize x.source = c at hs
      generalize y.source = d at hs
      cases hs with
      | some hcd => exact .some hcd.1
      | none => exact .none

/-- Only blanks and the quote that closes it show in a quoted run. -/
theorem Cells.face_of_open {q : Char} {x y : Cell} (h : L.Cells (some q) x y) :
    isQuote q = true ∧ (x.face = q ∨ x.face = ' ') := by
  obtain ⟨hq, ⟨rfl, -⟩ | ⟨⟨hx, -⟩, -⟩⟩ := h
  · exact ⟨hq, Or.inl rfl⟩
  · exact ⟨hq, Or.inr hx⟩

/-! ## Tests that do not tell alike texts apart -/

theorem blind_text {p : Char → Bool} (hp : Coarse p) : L.text.Blind p where
  one h := hp.caseless.congr (L.toLower_eq h)
  run := by
    rintro q a b ⟨-, ha, hb⟩
    obtain ⟨v, hv⟩ := hp.blank
    exact ⟨v, fun c hc => hv c (ha.2 c hc), fun c hc => hv c (hb.2 c hc)⟩

theorem blind_masked {p : Char → Bool} (hp : Coarse p) : L.masked.Blind (p ·.face) where
  one h := hp.caseless.congr h.toLower_eq
  run := by
    rintro q a b ⟨-, u, v, ⟨hu, hv⟩, rfl, rfl⟩
    obtain ⟨w, hw⟩ := hp.blank
    refine ⟨w, fun x hx => ?_, fun x hx => ?_⟩
    · obtain ⟨c, hc, rfl⟩ := List.mem_map.1 hx
      exact hw c (hu.2 c hc)
    · obtain ⟨c, hc, rfl⟩ := List.mem_map.1 hx
      exact hw c (hv.2 c hc)

theorem solid_masked {p : Char → Bool} (hp : Sharp p) : L.masked.Solid (p ·.face) where
  toBlind := blind_masked hp.coarse
  run_eq_false := by
    rintro q a b ⟨-, u, v, ⟨hu, -⟩, rfl, -⟩ x hx
    obtain ⟨c, hc, rfl⟩ := List.mem_map.1 hx
    exact hp.blank c (hu.2 c hc)

theorem blind_look {p : Char → Bool} (hp : Coarse p) : look.Blind p where
  one h := hp.caseless.congr h
  run := by
    rintro q a b ⟨ha, hb⟩
    obtain ⟨v, hv⟩ := hp.blank
    exact ⟨v, fun c hc => hv c (ha.2 c hc), fun c hc => hv c (hb.2 c hc)⟩

theorem solid_look {p : Char → Bool} (hp : Sharp p) : look.Solid p where
  toBlind := blind_look hp.coarse
  run_eq_false h c hc := hp.blank c (h.1.2 c hc)

/-! ## Under the mask -/

theorem inStep_hidden {q c d : Char} (hq : NamesQuote (some q)) (hc : c ≠ q) (h : L.char c d) :
    L.masked.InStep (some q) (hidden c) (hidden d) ∧
      (hidden c).foldl L.masked.next (some q) = some q := by
  have hspace : nextQuote (some q) ' ' = some q := nextQuote_of_isBlank hq (by decide)
  have hrest (n : Nat) : L.masked.InStep (some q) (List.replicate n ⟨' ', none⟩)
      (List.replicate n ⟨' ', none⟩) := by
    induction n with
    | zero => exact .nil _
    | succ n ih =>
      rw [List.replicate_succ]
      refine .one ⟨hq.isQuote, Or.inr ⟨⟨rfl, rfl⟩, .none⟩⟩ ?_
      rw [next_masked, hspace]
      exact ih
  constructor
  · rw [hidden, hidden, caseless_utf8Size.congr (L.toLower_eq h)]
    refine .one ⟨hq.isQuote, Or.inr ⟨⟨rfl, rfl⟩, .some ⟨h, hc⟩⟩⟩ ?_
    rw [next_masked, hspace]
    exact hrest _
  · rw [foldl_next_masked, quoteAfter_some_of_notMem (faces_hidden_notMem hq.isQuote)]

theorem inStep_mask {q : Option Char} (hq : NamesQuote q) {s t : List Char}
    (h : L.text.InStep q s t) : L.masked.InStep q (maskFrom q s) (maskFrom q t) := by
  induction h with
  | nil q => cases q <;> exact .nil _
  | @one q c d s t h hr ih =>
    have hnext : nextQuote q d = nextQuote q c := (nextQuote_congr hq (L.toLower_eq h)).symm
    have ih := ih (hq.next c)
    cases q with
    | none =>
      rw [maskFrom_none_cons, maskFrom_none_cons, hnext]
      exact .one ⟨c, d, h, rfl, rfl⟩ ih
    | some q =>
      have hiff := eq_iff_of_toLower_eq (isLetter_of_isQuote hq.isQuote) (L.toLower_eq h)
      by_cases hc : c = q
      · obtain rfl := hiff.1 hc
        subst hc
        rw [maskFrom_self_cons, maskFrom_self_cons]
        refine .one ⟨hq.isQuote, Or.inl ⟨rfl, rfl⟩⟩ ?_
        have hself : nextQuote (some c) c = none := if_pos rfl
        rw [next_text, hself] at ih
        rw [next_masked, face_plain, hself]
        exact ih
      · obtain ⟨hh, hs⟩ := inStep_hidden hq hc h
        have hself : nextQuote (some q) c = some q := if_neg hc
        rw [maskFrom_hidden_cons hc, maskFrom_hidden_cons (mt hiff.2 hc)]
        rw [next_text, hself] at ih
        exact hh.append (by rw [hs]; exact ih)
  | @run q a b s t h hr ih =>
    obtain ⟨⟨hl, rfl⟩, ha, hb⟩ := h
    have hmask {a : List Char} (ha : IsSpace a) (s : List Char) :
        maskFrom none (a ++ s) = shown a ++ maskFrom none s := mask_unquoted_append ha.isQuote s
    rw [hmask ha, hmask hb]
    exact .run ⟨⟨hl, rfl⟩, a, b, ⟨ha, hb⟩, rfl, rfl⟩ (ih hq)

theorem inStep_faces {q : Option Char} {t u : List Cell} (h : L.masked.InStep q t u) :
    look.InStep () (faces t) (faces u) := by
  induction h with
  | nil q => exact .nil ()
  | one h hr ih => exact .one h.toLower_eq ih
  | run h hr ih =>
    obtain ⟨-, a, b, hab, rfl, rfl⟩ := h
    rw [faces_append, faces_append, faces_shown, faces_shown]
    exact .run hab ih

theorem inStep_sources {q : Option Char} {t u : List Cell} (h : L.masked.InStep q t u) :
    L.text.InStep q (sources t) (sources u) := by
  induction h with
  | nil q => exact .nil q
  | @one q x y t u h hr ih =>
    cases q with
    | none =>
      obtain ⟨c, d, hcd, rfl, rfl⟩ := h
      exact .one hcd ih
    | some q =>
      obtain ⟨hq, ⟨rfl, rfl⟩ | ⟨⟨hx, -⟩, hs⟩⟩ := h
      · exact .one (L.refl q) ih
      rw [next_masked, hx, nextQuote_of_isBlank (namesQuote_some hq) (by decide)] at ih
      obtain ⟨fx, sx⟩ := x
      obtain ⟨fy, sy⟩ := y
      cases hs with
      | none => exact ih
      | @some c d hcd =>
        have hself : L.text.next (some q) c = some q := if_neg hcd.2
        refine .one hcd.1 ?_
        rw [hself]
        exact ih
  | run h hr ih =>
    obtain ⟨⟨hl, rfl⟩, a, b, hab, rfl, rfl⟩ := h
    rw [sources_append, sources_append, sources_shown, sources_shown]
    exact .run ⟨⟨hl, rfl⟩, hab⟩ ih

/-! ## Character by character -/

theorem forall₂_sources_cons {x y : Cell} {t u : List Cell}
    (h : Option.Rel L.char x.source y.source) (ht : List.Forall₂ L.char (sources t) (sources u)) :
    List.Forall₂ L.char (sources (x :: t)) (sources (y :: u)) := by
  obtain ⟨fx, sx⟩ := x
  obtain ⟨fy, sy⟩ := y
  cases h with
  | none => exact ht
  | some hcd => exact .cons hcd ht

theorem forall₂_sources_of_not_blank {q : Option Char} {t u : List Cell}
    (h : L.masked.InStep q t u) (ht : ∀ x ∈ t, x.isBlank = false) :
    List.Forall₂ L.char (sources t) (sources u) := by
  induction h with
  | nil q => exact .nil
  | one h hr ih =>
    rw [List.forall_mem_cons] at ht
    exact forall₂_sources_cons h.source (ih ht.2)
  | run h hr ih =>
    obtain ⟨-, a, b, ⟨ha, -⟩, rfl, -⟩ := h
    obtain ⟨c, a, rfl⟩ := List.exists_cons_of_ne_nil ha.1
    have := ht (.plain c) (by simp)
    rw [Cell.isBlank, face_plain, ha.2 c List.mem_cons_self] at this
    cases this

/-- White space is not laid out anew in a quoted run. -/
theorem forall₂_sources_of_open {q : Char} {t u : List Cell} (h : L.masked.InStep (some q) t u)
    (ht : ∀ x ∈ t, x.face ≠ q) : List.Forall₂ L.char (sources t) (sources u) := by
  generalize hq : some q = r at h
  induction h with
  | nil r => exact .nil
  | one h hr ih =>
    rw [List.forall_mem_cons] at ht
    refine forall₂_sources_cons h.source (ih ht.2 ?_)
    rw [← hq]
    exact (if_neg ht.1).symm
  | run h hr ih =>
    rw [h.1.2] at hq
    cases hq

/-! ## Trimming -/

theorem inStep_trim {s t : List Char} (h : L.text.InStep none s t) :
    L.text.InStep none (trim s) (trim t) :=
  have hnext (c : Char) (hc : isBlank c = true) : L.text.next none c = none :=
    nextQuote_of_isBlank namesQuote_none hc
  (h.cut_dropWhile_self (blind_text coarse_isBlank) hnext).after.rdropWhile
    (blind_text coarse_isBlank)

section

variable {s t : List Char}

theorem forall₂_dropWhile {p : Char → Bool} (hp : Caseless p) (h : List.Forall₂ L.char s t) :
    List.Forall₂ L.char (s.dropWhile p) (t.dropWhile p) := by
  induction h with
  | nil => exact .nil
  | @cons c d s t hcd hst ih =>
    rw [List.dropWhile_cons, List.dropWhile_cons, ← hp.congr (L.toLower_eq hcd)]
    split
    · exact ih
    · exact .cons hcd hst

theorem forall₂_trim (h : List.Forall₂ L.char s t) : List.Forall₂ L.char (trim s) (trim t) := by
  have hstart := forall₂_dropWhile coarse_isBlank.caseless h
  have hend := forall₂_dropWhile coarse_isBlank.caseless (List.forall₂_reverse_iff.2 hstart)
  exact List.forall₂_reverse_iff.2 hend

theorem forall₂_peel? {q : Char} (hq : isQuote q = true) (h : List.Forall₂ L.char s t) :
    Option.Rel (List.Forall₂ L.char) (peel? q s) (peel? q t) := by
  cases h with
  | nil => exact .none
  | @cons c d s t hcd hst =>
    have hiff {c d : Char} (hcd : L.char c d) : c = q ↔ d = q :=
      eq_iff_of_toLower_eq (isLetter_of_isQuote hq) (L.toLower_eq hcd)
    have hlast : s.getLast? = some q ↔ t.getLast? = some q := by
      rw [List.getLast?_eq_head?_reverse, List.getLast?_eq_head?_reverse]
      have hrev := List.forall₂_reverse_iff.2 hst
      generalize s.reverse = s' at hrev
      generalize t.reverse = t' at hrev
      cases hrev with
      | nil => exact Iff.rfl
      | cons hcd _ => simpa using hiff hcd
    rw [peel?, peel?]
    simp only [hiff hcd, hlast]
    split
    · rw [List.dropLast_eq_take, List.dropLast_eq_take, hst.length_eq]
      exact .some (List.forall₂_take _ hst)
    · exact .none

theorem forall₂_getD {x y : Option (List Char)} (h : Option.Rel (List.Forall₂ L.char) x y)
    (ht : List.Forall₂ L.char s t) : List.Forall₂ L.char (x.getD s) (y.getD t) := by
  cases h with
  | none => exact ht
  | some h => exact h

theorem forall₂_unquoteChars (h : List.Forall₂ L.char s t) :
    List.Forall₂ L.char (unquoteChars s) (unquoteChars t) := by
  have hor {x y x' y' : Option (List Char)} (h : Option.Rel (List.Forall₂ L.char) x y)
      (h' : Option.Rel (List.Forall₂ L.char) x' y') :
      Option.Rel (List.Forall₂ L.char) (x.or x') (y.or y') := by
    cases h with
    | none => exact h'
    | some h => exact .some h
  have ht := forall₂_trim h
  exact forall₂_trim
    (forall₂_getD (hor (forall₂_peel? (by decide) ht) (forall₂_peel? (by decide) ht)) ht)

theorem forall₂_fieldNameChars (h : List.Forall₂ L.char s t) :
    List.Forall₂ L.char (fieldNameChars s) (fieldNameChars t) := by
  have ht := forall₂_trim h
  have hpeel := forall₂_getD (forall₂_peel? (q := doubleQuote) (by decide) ht) ht
  refine forall₂_trim (List.rel_filter ?_ hpeel)
  intro c d hcd
  have hiff := eq_iff_of_toLower_eq (e := backQuote) (by decide) (L.toLower_eq hcd)
  simp [hiff]

end

end Likeness

end QueryStats.Query
