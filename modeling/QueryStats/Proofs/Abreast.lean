import QueryStats.Proofs.Likeness

/-!
# Recognisers on texts in step

Of two masked texts in step, outside quoted runs, a recogniser reads both or neither, and what it
leaves is in step again.  What it reads as a name, an amount or a unit stands for the same,
character by character (`Reads`); the arguments of two calls are in step (`Calls`).  A test of what
shows before or behind a place passes at both places or at neither.
-/

namespace QueryStats.Query

open Text

/-! ## Results that go together -/

section

variable {α β γ δ : Type} {R : α → β → Prop} {S : γ → δ → Prop} {x : Option α} {y : Option β}

theorem rel_imp {R' : α → β → Prop} (h : ∀ a b, R a b → R' a b) (hxy : Option.Rel R x y) :
    Option.Rel R' x y := by
  cases hxy with
  | none => exact .none
  | some hab => exact .some (h _ _ hab)

theorem rel_bind {f : α → Option γ} {g : β → Option δ} (hxy : Option.Rel R x y)
    (hfg : ∀ a b, R a b → Option.Rel S (f a) (g b)) : Option.Rel S (x.bind f) (y.bind g) := by
  cases hxy with
  | none => exact .none
  | some hab => exact hfg _ _ hab

theorem rel_map {f : α → γ} {g : β → δ} (hxy : Option.Rel R x y)
    (hfg : ∀ a b, R a b → S (f a) (g b)) : Option.Rel S (x.map f) (y.map g) := by
  cases hxy with
  | none => exact .none
  | some hab => exact .some (hfg _ _ hab)

theorem rel_or {x' : Option α} {y' : Option β} (hxy : Option.Rel R x y)
    (hxy' : Option.Rel R x' y') : Option.Rel R (x.or x') (y.or y') := by
  cases hxy with
  | none => exact hxy'
  | some hab => exact .some hab

theorem rel_cases (hxy : Option.Rel R x y) :
    (x = none ∧ y = none) ∨ ∃ a b, (x = some a ∧ y = some b) ∧ R a b := by
  cases hxy with
  | none => exact Or.inl ⟨rfl, rfl⟩
  | some hab => exact Or.inr ⟨_, _, ⟨rfl, rfl⟩, hab⟩

end

/-! ## Recognisers by what a text starts with -/

theorem dropKeyword?_cons_eq {α : Type} (letter : α → Char) (k : Char) (ks : List Char)
    (t : List α) : dropKeyword? letter (k :: ks) t =
      if t.head?.any (fun x => decide (letter x = k)) then dropKeyword? letter ks t.tail
      else none := by
  cases t with
  | nil => rfl
  | cons x t => simp [dropKeyword?]

theorem skipSomeBlanks?_eq (t : List Cell) :
    skipSomeBlanks? t = if t.head?.any Cell.isBlank then some (skipBlanks t) else none := by
  cases t with
  | nil => rfl
  | cons x t =>
    rw [skipSomeBlanks?, List.head?_cons, Option.any_some]
    split
    · next hx => rw [skipBlanks, skipBlanks, List.dropWhile_cons, if_pos hx]
    · rfl

theorem skipChar?_eq (c : Char) (t : List Cell) :
    skipChar? c t = if t.head?.any (fun x => decide (x.face = c)) then some t.tail else none := by
  cases t with
  | nil => rfl
  | cons x t => simp [skipChar?]

theorem run?_eq (p : Char → Bool) (t : List Cell) :
    run? p t = if t.takeWhile (p ·.face) = [] then none
      else some (t.takeWhile (p ·.face), t.dropWhile (p ·.face)) := by
  rw [run?]
  split
  · next h => rw [if_pos h]
  · next h => rw [if_neg (by rw [h]; simp), h]

theorem quoted?_eq_none {q : Char} {t : List Cell}
    (h : t.head?.any (fun x => decide (x.face = q)) = false) : quoted? q t = none := by
  cases t with
  | nil => rfl
  | cons x t => exact quoted?_of_face_ne (of_decide_eq_false h) t

/-! ## Keywords and signs -/

/-- Whether a character is a sign: no letter, no white space and no quote. -/
def IsMark (c : Char) : Prop := isLetter c = false ∧ isBlank c = false ∧ isQuote c = false

instance (c : Char) : Decidable (IsMark c) := inferInstanceAs (Decidable (_ ∧ _ ∧ _))

/-- A keyword starts two lists in step or neither, if each letter of it is told from all others. -/
theorem rel_dropKeyword? {σ α : Type} {P : Pairing σ α} {letter : α → Char} {s : σ}
    {ks : List Char}
    (hk : ∀ k ∈ ks, P.Solid (fun x => decide (letter x = k)) ∧ ∀ x, letter x = k → P.next s x = s)
    {t u : List α} (h : P.InStep s t u) :
    Option.Rel (P.Cut s t u s) (dropKeyword? letter ks t) (dropKeyword? letter ks u) := by
  induction ks generalizing t u with
  | nil => exact .some h.cut_refl
  | cons k ks ih =>
    rw [List.forall_mem_cons] at hk
    rw [dropKeyword?_cons_eq, dropKeyword?_cons_eq]
    rcases h.head_cases hk.1.1 with ⟨ht, hu⟩ | ⟨x, t', y, u', ⟨rfl, rfl⟩, ⟨hx, hy⟩, -, hcut⟩
    · rw [ht, hu]
      exact .none
    · rw [hk.1.2 x (of_decide_eq_true hx)] at hcut
      rw [List.head?_cons, List.head?_cons, Option.any_some, Option.any_some, hx, hy, if_pos rfl,
        if_pos rfl]
      exact rel_imp (fun _ _ => hcut.trans) (ih hk.2 hcut.after)

namespace Likeness

variable {L : Likeness} {t t' : List Cell}

theorem cut_skipBlanks (h : L.masked.InStep none t t') :
    L.masked.Cut none t t' none (skipBlanks t) (skipBlanks t') :=
  h.cut_dropWhile_self (blind_masked coarse_isBlank)
    fun _ hx => nextQuote_of_isBlank namesQuote_none hx

theorem rel_skipSomeBlanks? (h : L.masked.InStep none t t') :
    Option.Rel (L.masked.Cut none t t' none) (skipSomeBlanks? t) (skipSomeBlanks? t') := by
  have hhead : t.head?.any Cell.isBlank = t'.head?.any Cell.isBlank :=
    h.any_head? (blind_masked coarse_isBlank)
  rw [skipSomeBlanks?_eq, skipSomeBlanks?_eq, hhead]
  split
  · exact .some (cut_skipBlanks h)
  · exact .none

/-- A sign stands outside quoted runs, so no run is open after it. -/
theorem rel_skipChar? {q : Option Char} {c : Char} (hc : IsMark c) (h : L.masked.InStep q t t') :
    Option.Rel (L.masked.Cut q t t' none) (skipChar? c t) (skipChar? c t') := by
  obtain ⟨hl, hb, hq⟩ := hc
  rw [skipChar?_eq, skipChar?_eq]
  rcases h.head_cases (solid_masked (sharp_eq hl hb)) with
    ⟨ht, ht'⟩ | ⟨x, u, y, u', ⟨rfl, rfl⟩, ⟨hx, hy⟩, hxy, hcut⟩
  · rw [ht, ht']
    exact .none
  · have hface : x.face = c := of_decide_eq_true hx
    have hnext : L.masked.next q x = none := by
      cases q with
      | none => rw [next_masked, hface, nextQuote_none_of_not_quote hq]
      | some q =>
        obtain ⟨hquote, hf | hf⟩ := hxy.face_of_open
        · rw [← hf, hface, hq] at hquote
          cases hquote
        · rw [← hface, hf] at hb
          exact absurd hb (by decide)
    rw [hnext] at hcut
    rw [List.head?_cons, List.head?_cons, Option.any_some, Option.any_some, hx, hy, if_pos rfl,
      if_pos rfl]
    exact .some hcut

/-- A sign after white space. -/
theorem rel_skipSign? {q : Option Char} {c : Char} (hc : IsMark c)
    (h : L.masked.InStep q t t') :
    Option.Rel (L.masked.Cut q t t' none) (skipChar? c (skipBlanks t))
      (skipChar? c (skipBlanks t')) :=
  have hskip := h.cut_dropWhile (blind_masked coarse_isBlank)
  rel_imp (fun _ _ => hskip.trans) (rel_skipChar? hc hskip.after)

theorem next_of_isAliasChar {x : Cell} (h : isAliasChar x.face = true) :
    L.masked.next none x = none :=
  nextQuote_none_of_not_quote (isQuote_of_isAliasChar h)

theorem rel_skipKeyword? {keyword : String} (hk : ∀ k ∈ keyword.toList, k.isLower = true)
    (h : L.masked.InStep none t t') :
    Option.Rel (L.masked.Cut none t t' none) (skipKeyword? keyword t)
      (skipKeyword? keyword t') := by
  refine rel_dropKeyword? (fun k hm => ⟨solid_masked (sharp_fold (hk k hm)), fun x hx => ?_⟩) h
  apply next_of_isAliasChar
  apply isAliasChar_of_isLetter
  rw [isLetter, hx, hk k hm]

/-! ## Runs and names -/

/-- Whether two recognisers read what stands for the same, character by character, and leave texts
in step. -/
structure Reads (L : Likeness) (t t' : List Cell) (r : Option Char)
    (a b : List Cell × List Cell) : Prop where
  spelled : List.Forall₂ L.char (sources a.1) (sources b.1)
  left : L.masked.Cut none t t' r a.2 b.2

theorem Reads.of_cut {s s' : List Cell} {r : Option Char} {a b : List Cell × List Cell}
    (h : L.masked.Cut none s s' none t t') (hab : L.Reads t t' r a b) : L.Reads s s' r a b :=
  ⟨hab.spelled, h.trans hab.left⟩

theorem rel_run? {p : Char → Bool} (hp : Sharp p) (h : L.masked.InStep none t t') :
    Option.Rel (fun a b => (∀ x ∈ a.1, p x.face = true) ∧ L.masked.InStep none a.1 b.1 ∧
      L.Reads t t' (quoteAfter none (faces a.1)) a b) (run? p t) (run? p t') := by
  obtain ⟨hread, -⟩ := h.span (blind_masked hp.coarse)
  have hleft := h.cut_dropWhile (blind_masked hp.coarse)
  rw [foldl_next_masked] at hleft
  rw [run?_eq, run?_eq]
  by_cases hnil : t.takeWhile (p ·.face) = []
  · rw [if_pos hnil, if_pos (hread.eq_nil_iff.1 hnil)]
    exact .none
  · rw [if_neg hnil, if_neg (mt hread.eq_nil_iff.2 hnil)]
    have hall : ∀ x ∈ t.takeWhile (p ·.face), p x.face = true :=
      fun x hx => List.mem_takeWhile_imp (p := fun x : Cell => p x.face) hx
    have hspelled := forall₂_sources_of_not_blank hread fun x hx => hp.isBlank_eq_false (hall x hx)
    exact .some ⟨hall, hread, hspelled, hleft⟩

/-- No run is open after characters of an alias. -/
theorem rel_run?_of_isAliasChar {p : Char → Bool} (hp : Sharp p)
    (ha : ∀ {c}, p c = true → isAliasChar c = true) (h : L.masked.InStep none t t') :
    Option.Rel (fun a b => L.masked.InStep none a.1 b.1 ∧ L.Reads t t' none a b) (run? p t)
      (run? p t') := by
  refine rel_imp (fun a b ⟨hall, hread, hab⟩ => ⟨hread, ?_⟩) (rel_run? hp h)
  have hclosed : quoteAfter none (faces a.1) = none := balanced_of_unquoted fun c hc => by
    obtain ⟨x, hx, rfl⟩ := List.mem_map.1 hc
    exact isQuote_of_isAliasChar (ha (hall x hx))
  rwa [hclosed] at hab

/-- A quoted run is closed in two texts in step or in neither. -/
theorem close_cases {q : Char} (hq : isQuote q = true) (h : L.masked.InStep (some q) t t') :
    (t.dropWhile (·.face != q) = [] ∧ t'.dropWhile (·.face != q) = []) ∨
      ∃ z u z' u', (t.dropWhile (·.face != q) = z :: u ∧ t'.dropWhile (·.face != q) = z' :: u') ∧
        List.Forall₂ L.char (sources (t.takeWhile (·.face != q) ++ [z]))
          (sources (t'.takeWhile (·.face != q) ++ [z'])) ∧
        L.masked.Cut (some q) t t' none u u' := by
  have hblind : L.masked.Blind (fun z : Cell => z.face != q) :=
    blind_masked (sharp_eq_quote hq).not
  have hopen : ∀ z : Cell, (z.face != q) = true → L.masked.next (some q) z = some q :=
    fun z hz => if_neg (bne_iff_ne.1 hz)
  have hcut := h.cut_dropWhile_self hblind hopen
  rcases hcut.after.head_cases (solid_masked (sharp_eq_quote hq)) with
    ⟨hd, hd'⟩ | ⟨z, u, z', u', hd, ⟨hz, -⟩, (hzz : L.Cells (some q) z z'), hclose⟩
  · -- What follows the body starts with the quote, or is empty.
    have hnil {s : List Cell}
        (hs : (s.dropWhile (·.face != q)).head?.any (fun z => decide (z.face = q)) = false) :
        s.dropWhile (·.face != q) = [] := by
      have hstop := stops_dropWhile (· != q) s
      generalize s.dropWhile (·.face != q) = d at hs hstop
      cases d with
      | nil => rfl
      | cons z d => exact absurd (bne_eq_false_iff_eq.1 (hstop z rfl)) (of_decide_eq_false hs)
    exact Or.inl ⟨hnil hd, hnil hd'⟩
  · have hend : L.masked.next (some q) z = none := if_pos (of_decide_eq_true hz)
    rw [hend] at hclose
    have hbody : List.Forall₂ L.char (sources (t.takeWhile (·.face != q)))
        (sources (t'.takeWhile (·.face != q))) :=
      forall₂_sources_of_open (h.span hblind).1 fun z hz =>
        bne_iff_ne.1 (List.mem_takeWhile_imp (p := fun z : Cell => z.face != q) hz)
    refine Or.inr ⟨z, u, z', u', hd, ?_, hcut.trans hclose⟩
    rw [sources_append, sources_append]
    exact List.rel_append hbody (forall₂_sources_cons hzz.source .nil)

theorem rel_quoted? {q : Char} (hq : isQuote q = true) (h : L.masked.InStep none t t') :
    Option.Rel (L.Reads t t' none) (quoted? q t) (quoted? q t') := by
  rcases h.head_cases (solid_masked (sharp_eq_quote hq)) with
    ⟨ht, ht'⟩ | ⟨x, u, y, u', ⟨rfl, rfl⟩, ⟨hx, hy⟩, (hxy : L.Cells none x y), hopen⟩
  · rw [quoted?_eq_none ht, quoted?_eq_none ht']
    exact .none
  have hx : x.face = q := of_decide_eq_true hx
  have hy : y.face = q := of_decide_eq_true hy
  have hnext : L.masked.next none x = some q := by
    rw [next_masked, hx]
    exact if_pos hq
  rw [hnext] at hopen
  rw [quoted?, quoted?, if_pos hx, if_pos hy]
  rcases close_cases hq hopen.after with ⟨hd, hd'⟩ | ⟨z, v, z', v', ⟨hd, hd'⟩, hspelled, hclose⟩
  · rw [hd, hd']
    exact .none
  · rw [hd, hd']
    exact .some ⟨forall₂_sources_cons hxy.source hspelled, hopen.trans hclose⟩

theorem rel_name? {p : Char → Bool} {R : List Cell × List Cell → List Cell × List Cell → Prop}
    (hR : ∀ a b, L.Reads t t' none a b → R a b) (h : L.masked.InStep none t t')
    (hrun : Option.Rel R (run? p t) (run? p t')) : Option.Rel R (name? p t) (name? p t') :=
  rel_or (rel_imp hR (rel_quoted? rfl h)) (rel_or (rel_imp hR (rel_quoted? rfl h)) hrun)

/-- A bare field may hold the third quote, so a run may be open after it. -/
theorem rel_field? (h : L.masked.InStep none t t') :
    Option.Rel (fun a b => ∃ r, L.Reads t t' r a b) (field? t) (field? t') :=
  rel_name? (fun _ _ hab => ⟨none, hab⟩) h
    (rel_imp (fun _ _ hab => ⟨_, hab.2.2⟩) (rel_run? sharp_isFieldChar h))

/-! ## Aliases -/

theorem rel_alias? (h : L.masked.InStep none t t') :
    Option.Rel (L.Reads t t' none) (alias? t) (alias? t') := by
  refine rel_bind (rel_skipSomeBlanks? h) fun t₁ u₁ h₁ => ?_
  refine rel_bind (rel_skipKeyword? (by decide) h₁.after) fun t₂ u₂ h₂ => ?_
  refine rel_bind (rel_skipSomeBlanks? h₂.after) fun t₃ u₃ h₃ => ?_
  have hrun : Option.Rel (L.Reads t₃ u₃ none) (run? isAliasChar t₃) (run? isAliasChar u₃) :=
    rel_imp (fun _ _ hab => hab.2) (rel_run?_of_isAliasChar sharp_isAliasChar id h₃.after)
  exact rel_imp (fun _ _ hab => hab.of_cut ((h₁.trans h₂).trans h₃))
    (rel_name? (fun _ _ hab => hab) h₃.after hrun)

/-- Whether two optional labels stand for the same, character by character. -/
def Labels (L : Likeness) : Option (List Cell) → Option (List Cell) → Prop :=
  Option.Rel fun a b => List.Forall₂ L.char (sources a) (sources b)

theorem rel_optionalAlias (h : L.masked.InStep none t t') :
    L.Labels (optionalAlias t).1 (optionalAlias t').1 ∧
      L.masked.Cut none t t' none (optionalAlias t).2 (optionalAlias t').2 := by
  have halias := rel_alias? h
  rw [optionalAlias, optionalAlias]
  generalize alias? t = a at halias
  generalize alias? t' = b at halias
  cases halias with
  | none => exact ⟨.none, h.cut_refl⟩
  | some hab => exact ⟨.some hab.spelled, hab.left⟩

/-! ## Calls -/

/-- Whether two calls as written differ as a likeness allows. -/
structure Calls (L : Likeness) (c d : Call) : Prop where
  name : List.Forall₂ L.char (sources c.name) (sources d.name)
  argument : L.masked.InStep none c.argument d.argument
  label : L.Labels c.label d.label

theorem rel_call? (h : L.masked.InStep none t t') :
    Option.Rel (fun a b => L.Calls a.1 b.1 ∧ L.masked.Cut none t t' none a.2 b.2) (call? t)
      (call? t') := by
  refine rel_bind (rel_run?_of_isAliasChar sharp_isNameChar isAliasChar_of_isNameChar h) ?_
  rintro ⟨name, t₁⟩ ⟨name', u₁⟩ ⟨hname, hreads⟩
  have hstart : name.head?.any (isNameStart ·.face) = name'.head?.any (isNameStart ·.face) :=
    hname.any_head? (blind_masked sharp_isNameStart.coarse)
  simp only [hstart]
  split
  · exact .none
  refine rel_bind (rel_skipChar? (by decide) hreads.left.after) fun t₂ u₂ h₂ => ?_
  have hblind : L.masked.Blind (fun x : Cell => !isParenthesis x.face) :=
    blind_masked sharp_isParenthesis.not
  have hargument := h₂.after.cut_dropWhile hblind
  refine rel_bind (rel_skipChar? (by decide) hargument.after) fun t₃ u₃ h₃ => ?_
  obtain ⟨hlabel, hrest⟩ := rel_optionalAlias h₃.after
  have hcut := (((hreads.left.trans h₂).trans hargument).trans h₃).trans hrest
  exact .some ⟨⟨hreads.spelled, (h₂.after.span hblind).1, hlabel⟩, hcut⟩

/-! ## Time buckets -/

theorem rel_fraction (h : L.masked.InStep none t t') :
    L.Reads t t' none (fraction t) (fraction t') := by
  have hpoint : Sharp fun c => decide (c = '.') := sharp_eq (by decide) (by decide)
  rcases h.head_cases (solid_masked hpoint) with
    ⟨ht, ht'⟩ | ⟨x, u, y, u', ⟨rfl, rfl⟩, ⟨hx, hy⟩, (hxy : L.Cells none x y), hcut⟩
  · have hnone {t : List Cell} (ht : t.head?.any (fun x => decide (x.face = '.')) = false) :
        fraction t = ([], t) := by
      have hskip : skipChar? '.' t = none := by
        rw [skipChar?_eq, ht]
        rfl
      simp only [fraction, hskip, Option.bind_none]
    rw [hnone ht, hnone ht']
    exact ⟨.nil, h.cut_refl⟩
  · have hx : x.face = '.' := of_decide_eq_true hx
    have hy : y.face = '.' := of_decide_eq_true hy
    rw [next_of_isAliasChar (by rw [hx]; rfl)] at hcut
    have hdigits := rel_run?_of_isAliasChar sharp_isDigit isAliasChar_of_isDigit hcut.after
    simp only [fraction, skipChar?, hx, hy, if_true, Option.bind_some]
    generalize run? Char.isDigit u = a at hdigits
    generalize run? Char.isDigit u' = b at hdigits
    cases hdigits with
    | none => exact ⟨.nil, h.cut_refl⟩
    | some hab =>
      exact ⟨forall₂_sources_cons (hxy.source) hab.2.spelled, hcut.trans hab.2.left⟩

theorem rel_amount? (h : L.masked.InStep none t t') :
    Option.Rel (L.Reads t t' none) (amount? t) (amount? t') := by
  refine rel_bind (rel_run?_of_isAliasChar sharp_isDigit isAliasChar_of_isDigit h) ?_
  rintro ⟨whole, t₁⟩ ⟨whole', u₁⟩ ⟨-, hwhole⟩
  have hpart := rel_fraction hwhole.left.after
  refine .some ⟨?_, hwhole.left.trans hpart.left⟩
  rw [sources_append, sources_append]
  exact List.rel_append hwhole.spelled hpart.spelled

/-- Whether two time buckets as written differ as a likeness allows. -/
structure Bucketings (L : Likeness) (b c : Bucketing) : Prop where
  field : List.Forall₂ L.char (sources b.field) (sources c.field)
  amount : List.Forall₂ L.char (sources b.amount) (sources c.amount)
  unit : List.Forall₂ L.char (sources b.unit) (sources c.unit)
  label : L.Labels b.label c.label

theorem rel_bucketing? (h : L.masked.InStep none t t') :
    Option.Rel (fun a b => L.Bucketings a.1 b.1 ∧ L.masked.Cut none t t' none a.2 b.2)
      (bucketing? t) (bucketing? t') := by
  refine rel_bind (rel_skipKeyword? (by decide) h) fun t₁ u₁ h₁ => ?_
  refine rel_bind (rel_skipSign? (by decide) h₁.after) fun t₂ u₂ h₂ => ?_
  have hb₂ := cut_skipBlanks h₂.after
  refine rel_bind (rel_field? hb₂.after) ?_
  rintro ⟨field, t₃⟩ ⟨field', u₃⟩ ⟨r, hfield⟩
  refine rel_bind (rel_skipSign? (by decide) hfield.left.after) fun t₄ u₄ h₄ => ?_
  have hb₄ := cut_skipBlanks h₄.after
  refine rel_bind (rel_amount? hb₄.after) ?_
  rintro ⟨amount, t₅⟩ ⟨amount', u₅⟩ hamount
  have hb₅ := cut_skipBlanks hamount.left.after
  refine rel_bind (rel_run?_of_isAliasChar sharp_isLetter isAliasChar_of_isLetter hb₅.after) ?_
  rintro ⟨unit, t₆⟩ ⟨unit', u₆⟩ ⟨-, hunit⟩
  refine rel_bind (rel_skipSign? (by decide) hunit.left.after) fun t₇ u₇ h₇ => ?_
  obtain ⟨hlabel, hrest⟩ := rel_optionalAlias h₇.after
  have hfirst := ((h₁.trans h₂).trans hb₂).trans (hfield.left.trans h₄)
  have hsecond := (hb₄.trans hamount.left).trans (hb₅.trans hunit.left)
  exact .some ⟨⟨hfield.spelled, hamount.spelled, hunit.spelled, hlabel⟩,
    (hfirst.trans hsecond).trans (h₇.trans hrest)⟩

/-! ## The text before a place -/

section

variable {x : Unit} {seen seen' : List Char}

theorem inStep_reverse (h : look.InStep x seen seen') :
    look.InStep x seen.reverse seen'.reverse := by
  induction h with
  | nil => exact .nil _
  | one h hr ih =>
    rw [List.reverse_cons, List.reverse_cons]
    exact ih.append (.one h (.nil _))
  | @run _ a b t u h hr ih =>
    rw [List.reverse_append, List.reverse_append]
    have hab : look.InStep x (a.reverse ++ []) (b.reverse ++ []) :=
      .run ⟨h.1.reverse, h.2.reverse⟩ (.nil _)
    rw [List.append_nil, List.append_nil] at hab
    exact ih.append hab

theorem map_toLower_of_inStep (h : look.InStep x seen seen')
    (hs : ∀ c ∈ seen, isBlank c = false) :
    seen.map Char.toLower = seen'.map Char.toLower := by
  induction h with
  | nil => rfl
  | one h hr ih =>
    rw [List.forall_mem_cons] at hs
    rw [List.map_cons, List.map_cons, show _ = _ from h, ih hs.2]
  | run h hr ih =>
    obtain ⟨c, a, rfl⟩ := List.exists_cons_of_ne_nil h.1.1
    have hc := hs c (by simp)
    rw [h.1.2 c List.mem_cons_self] at hc
    cases hc

theorem startsWord_congr (h : look.InStep x seen seen') :
    startsWord seen = startsWord seen' := by
  have hstarts (s : List Char) : startsWord s = !s.head?.any isWord := by cases s <;> rfl
  rw [hstarts, hstarts, h.any_head? (blind_look sharp_isWord.coarse)]

theorem follows_congr (words : List String) (h : look.InStep x seen seen') :
    follows words seen = follows words seen' := by
  have hblank := (h.span (blind_look coarse_isBlank)).2
  have hname := (hblank.span (blind_look sharp_isNamePart.coarse)).1
  have hlower := map_toLower_of_inStep hname fun c hc =>
    sharp_isNamePart.isBlank_eq_false (List.mem_takeWhile_imp hc)
  have hword : (wordBefore seen).map Char.toLower = (wordBefore seen').map Char.toLower := by
    rw [wordBefore, wordBefore, List.map_reverse, List.map_reverse]
    exact congrArg List.reverse hlower
  simp only [follows, eqIgnoreCase, hword]

theorem startsWithKeywordBy_eq (face : Char → Char) (keyword t : List Char) :
    startsWithKeywordBy face keyword t =
      (dropKeyword? (fun c => (face c).toLower) (keyword.map Char.toLower) t).any
        fun rest => !rest.head?.any (isNamePart <| face ·) := by
  rw [startsWithKeywordBy]
  rcases dropKeyword? (fun c => (face c).toLower) (keyword.map Char.toLower) t with
    _ | _ | ⟨c, rest⟩ <;> rfl

theorem startsWithKeywordBy_congr {keyword : List Char}
    (hk : ∀ k ∈ keyword.map Char.toLower, k.isLower = true)
    (h : look.InStep x seen seen') :
    startsWithKeywordBy id keyword seen = startsWithKeywordBy id keyword seen' := by
  have hdrop := rel_dropKeyword?
    (fun k hm => ⟨solid_look (sharp_toLower (hk k hm)), fun _ _ => rfl⟩) h
  rw [startsWithKeywordBy_eq, startsWithKeywordBy_eq]
  simp only [id_eq]
  generalize dropKeyword? Char.toLower (keyword.map Char.toLower) seen = a at hdrop
  generalize dropKeyword? Char.toLower (keyword.map Char.toLower) seen' = b at hdrop
  cases hdrop with
  | none => rfl
  | some hab =>
    rw [Option.any_some, Option.any_some,
      hab.after.any_head? (blind_look sharp_isNamePart.coarse)]

theorem groupsBare_congr (h : look.InStep x seen seen') :
    groupsBare seen = groupsBare seen' := by
  have hpipe : Sharp fun c => decide (c = '|') := sharp_eq (by decide) (by decide)
  have hcommand : look.InStep x (commandBefore seen) (commandBefore seen') :=
    ((inStep_reverse (h.span (blind_look hpipe.not)).1).span
      (blind_look coarse_isBlank)).2
  have hlower : ∀ command ∈ statsCommands, ∀ k ∈ command.toList.map Char.toLower,
      k.isLower = true := by decide
  rw [groupsBare, groupsBare, follows_congr _ h, Bool.eq_iff_iff, Bool.and_eq_true,
    Bool.and_eq_true, List.any_eq_true, List.any_eq_true]
  refine and_congr_right fun _ => exists_congr fun command => and_congr_right fun hm => ?_
  rw [startsWithKeywordBy_congr (hlower command hm) hcommand]

end

/-! ## What follows a place -/

section

variable {q : Option Char}

theorem endsWord_congr (h : L.masked.InStep q t t') : endsWord t = endsWord t' := by
  have hends (t : List Cell) : endsWord t = !t.head?.any (isWord ·.face) := by cases t <;> rfl
  rw [hends, hends, h.any_head? (blind_masked sharp_isWord.coarse)]

/-- Whether a list of aggregations may end is told from what shows after white space. -/
theorem endsItem_congr (h : L.masked.InStep q t t') : endsItem t = endsItem t' := by
  have hl : look.InStep () (trimStart (faces t)) (trimStart (faces t')) :=
    ((inStep_faces h).span (blind_look coarse_isBlank)).2
  have hsign : Sharp fun c => decide (c = ',' ∨ c = '|' ∨ c = ';') := by
    refine ⟨caseless_of_table (by decide), fun c hc => ?_⟩
    rw [decide_eq_false_iff_not]
    rintro (rfl | rfl | rfl) <;> exact absurd hc (by decide)
  have hhead := hl.any_head? (blind_look hsign.coarse)
  have hmem (s : List Char) : (∃ c ∈ s.head?, c = ',' ∨ c = '|' ∨ c = ';') ↔
      s.head?.any (fun c => decide (c = ',' ∨ c = '|' ∨ c = ';')) = true := by
    simp [Option.any_eq_true]
  rw [Bool.eq_iff_iff, endsItem_eq_true_iff, endsItem_eq_true_iff, EndsRequest, EndsRequest,
    hl.eq_nil_iff, hmem, hmem, hhead, startsWithKeywordBy_congr (by decide) hl,
    startsWithKeywordBy_congr (by decide) hl]

theorem isRequested_congr {x : Unit} {seen seen' : List Char} (hs : look.InStep x seen seen')
    (h : L.masked.InStep q t t') : isRequested seen t = isRequested seen' t' := by
  rw [isRequested, isRequested, follows_congr _ hs, endsItem_congr h]

theorem opensParenthesis_congr (h : L.masked.InStep q t t') :
    opensParenthesis t = opensParenthesis t' := by
  have hsign := rel_skipSign? (c := '(') (by decide) h
  rw [opensParenthesis, opensParenthesis]
  generalize skipChar? '(' (skipBlanks t) = a at hsign
  generalize skipChar? '(' (skipBlanks t') = b at hsign
  cases hsign <;> rfl

theorem coarse_isGap : Coarse fun c => isBlank c || decide (c = ',') :=
  ⟨caseless_of_table (by decide), true, fun c hc => by rw [hc]; rfl⟩

theorem commaFollows_congr (h : L.masked.InStep q t t') : commaFollows t = commaFollows t' := by
  have hcomma : Sharp fun c => decide (c = ',') := sharp_eq (by decide) (by decide)
  have hgap := (h.span (blind_masked coarse_isGap)).1
  exact hgap.any (blind_masked hcomma.coarse)

/-- In an open run no comma shows before its end. -/
theorem commaFollows_of_open {q : Char} (h : L.masked.InStep (some q) t t') :
    commaFollows t = false := by
  generalize hq : some q = r at h
  induction h with
  | nil r => rfl
  | @one r x y t u hxy hr ih =>
    subst hq
    have hxy : L.Cells (some q) x y := hxy
    obtain ⟨hquote, hf | hf⟩ := hxy.face_of_open
    · have hgap : x.isGap = false := by
        rw [← Bool.not_eq_true]
        intro hg
        rw [← hf, isQuote_of_isGap hg] at hquote
        cases hquote
      rw [commaFollows, List.takeWhile_cons, hgap]
      rfl
    · have hnext : some q = L.masked.next (some q) x := by
        rw [next_masked, hf, nextQuote_of_isBlank (namesQuote_some hquote) (by decide)]
      have hgap : x.isGap = true := by
        rw [Cell.isGap, Cell.isBlank, hf]
        rfl
      rw [commaFollows, List.takeWhile_cons, hgap, if_pos rfl, List.any_cons, hf]
      exact ih hnext
  | run h hr ih =>
    rw [h.1.2] at hq
    cases hq

end

/-! ## Grouping keywords -/

theorem rel_skipBy? (h : L.masked.InStep none t t') :
    Option.Rel (L.masked.Cut none t t' none) (skipBy? t) (skipBy? t') := by
  refine rel_bind (rel_skipKeyword? (by decide) h) fun t₁ u₁ h₁ => ?_
  rw [endsWord_congr h₁.after]
  split
  · exact .some h₁
  · exact .none

theorem rel_skipGroupBy? (h : L.masked.InStep none t t') :
    Option.Rel (L.masked.Cut none t t' none) (skipGroupBy? t) (skipGroupBy? t') := by
  refine rel_bind (rel_skipKeyword? (by decide) h) fun t₁ u₁ h₁ => ?_
  refine rel_bind (rel_skipSomeBlanks? h₁.after) fun t₂ u₂ h₂ => ?_
  exact rel_imp (fun _ _ => (h₁.trans h₂).trans) (rel_skipBy? h₂.after)

theorem rel_groupingKeyword? {x : Unit} {seen seen' : List Char}
    (hs : look.InStep x seen seen') (h : L.masked.InStep none t t') :
    Option.Rel (fun a b => a.1 = b.1 ∧ L.masked.Cut none t t' none a.2 b.2)
      (groupingKeyword? seen t) (groupingKeyword? seen' t') := by
  rw [groupingKeyword?, groupingKeyword?, groupsBare_congr hs]
  exact rel_or (rel_map (rel_skipGroupBy? h) fun _ _ hab => ⟨rfl, hab⟩)
    (rel_map (rel_skipBy? h) fun _ _ hab => ⟨rfl, hab⟩)

end Likeness

end QueryStats.Query
