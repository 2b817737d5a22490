import QueryStats.Proofs.Forms

/-!
# The form of a time bucket

A time bucket is described here by the characters that make it up: the keyword, a field, an amount
and a unit, with white space between any two parts (`IsSpan`), and possibly an `AS` clause behind
them.  A reader finds one just where a text of this form stands (`bucketing?_eq_some_iff`).
-/

namespace QueryStats.Query

open Text Written

/-! ## Amounts -/

theorem IsDigits.of_run? {t run rest : List Cell} (h : run? Char.isDigit t = some (run, rest)) :
    IsDigits (faces run) := by
  obtain ⟨hne, hd, -⟩ := run?_eq_some_iff.1 h
  refine ⟨by simpa [faces] using hne, fun c hc => ?_⟩
  obtain ⟨x, hx, rfl⟩ := List.mem_map.1 hc
  exact hd x hx

/-- What is read as a fraction is a point and digits, or nothing. -/
theorem fraction_append (t : List Cell) :
    t = (fraction t).1 ++ (fraction t).2 ∧
      ((fraction t).1 = [] ∨ ∃ part, IsDigits part ∧ faces (fraction t).1 = '.' :: part) := by
  simp only [fraction]
  split
  · next digits rest x u h =>
    obtain ⟨v, hv, hr⟩ := Option.bind_eq_some_iff.1 h
    obtain ⟨y, hy, hu⟩ := skipChar?_eq_some_iff.1 hv
    obtain ⟨rfl, rfl⟩ := List.cons.inj hu
    refine ⟨congrArg (x :: ·) (run?_append hr).2, Or.inr ⟨faces digits, IsDigits.of_run? hr, ?_⟩⟩
    rw [faces_cons, hy]
  · exact ⟨rfl, Or.inl rfl⟩

theorem isAmount_of_amount? {t amount rest : List Cell} (h : amount? t = some (amount, rest)) :
    IsAmount (faces amount) ∧ t = amount ++ rest := by
  simp only [amount?, Option.bind_eq_bind, Option.bind_eq_some_iff] at h
  obtain ⟨⟨whole, u⟩, hrun, h⟩ := h
  simp only [Option.pure_def, Option.some.injEq, Prod.mk.injEq] at h
  obtain ⟨rfl, rfl⟩ := h
  have hwhole := IsDigits.of_run? hrun
  obtain ⟨hu, hnil | ⟨part, hpart, hp⟩⟩ := fraction_append u
  · rw [hnil, List.nil_append] at hu
    rw [hnil, List.append_nil, ← hu]
    exact ⟨Or.inl hwhole, (run?_append hrun).2⟩
  · refine ⟨Or.inr ⟨faces whole, part, hwhole, hpart, by rw [faces_append, hp]⟩, ?_⟩
    rw [List.append_assoc, ← hu]
    exact (run?_append hrun).2

theorem IsAmount.exists_cons {a : List Cell} (h : IsAmount (faces a)) :
    ∃ x u, a = x :: u ∧ isAliasChar x.face = true := by
  obtain ⟨x, u, rfl⟩ := List.exists_cons_of_ne_nil (l := a) fun ha => h.ne_nil (by rw [ha]; rfl)
  exact ⟨x, u, rfl, h.isAliasChar x.face List.mem_cons_self⟩

/-! ## White space -/

/-- White space, possibly none. -/
def IsBlanks (text : List Cell) : Prop := ∀ x ∈ text, x.isBlank = true

theorem isBlanks_skipped (t : List Cell) : ∃ gap, IsBlanks gap ∧ t = gap ++ skipBlanks t :=
  ⟨t.takeWhile Cell.isBlank, fun _ hx => List.mem_takeWhile_imp hx,
    List.takeWhile_append_dropWhile.symm⟩

theorem IsBlanks.skipBlanks {gap t : List Cell} (hg : IsBlanks gap) (ht : Stops isBlank t) :
    skipBlanks (gap ++ t) = t := dropWhile_append_of_stops hg ht

theorem IsBlanks.stops {p : Char → Bool} (hp : ∀ c, isBlank c = true → p c = false)
    {gap t : List Cell} (hg : IsBlanks gap) (ht : Stops p t) : Stops p (gap ++ t) := by
  cases gap with
  | nil => exact ht
  | cons x gap => exact stops_cons (hp _ (hg x List.mem_cons_self)) _

/-- White space is no character of an alias, so no digit and no letter. -/
theorem eq_false_of_isBlank {p : Char → Bool} (hp : ∀ c, p c = true → isAliasChar c = true)
    {c : Char} (h : isBlank c = true) : p c = false := by
  rw [← Bool.not_eq_true]
  intro hc
  rw [isBlank_of_isAliasChar (hp c hc)] at h
  cases h

/-! ## Time buckets -/

/-- A field as it stands in a text: a run between back quotes, one between double quotes, or some
characters that may stand in a bare field. -/
def IsFieldToken (text : List Cell) : Prop :=
  IsQuotedRun backQuote text ∨ IsQuotedRun doubleQuote text ∨
    text ≠ [] ∧ ∀ x ∈ text, isFieldChar x.face = true

theorem IsFieldToken.isName {text rest : List Cell} (h : IsFieldToken text)
    (hr : Stops isFieldChar rest) : IsName isFieldChar text rest := by
  rcases h with h | h | ⟨hne, ht⟩
  · exact Or.inl h
  · exact Or.inr (Or.inl h)
  · exact Or.inr (Or.inr ⟨hne, ht, hr⟩)

theorem IsName.isFieldToken {text rest : List Cell} (h : IsName isFieldChar text rest) :
    IsFieldToken text := by
  rcases h with h | h | ⟨hne, ht, -⟩
  · exact Or.inl h
  · exact Or.inr (Or.inl h)
  · exact Or.inr (Or.inr ⟨hne, ht⟩)

/-- A field starts with a quote or with a field character. -/
theorem IsFieldToken.stops {p : Char → Bool} (hb : p backQuote = false) (hd : p doubleQuote = false)
    (hp : ∀ c, isFieldChar c = true → p c = false) {text : List Cell} (h : IsFieldToken text)
    (t : List Cell) : Stops p (text ++ t) := by
  rcases h with ⟨x, body, y, rfl, hx, -⟩ | ⟨x, body, y, rfl, hx, -⟩ | ⟨hne, ht⟩
  · exact stops_cons (by rw [hx, hb]) _
  · exact stops_cons (by rw [hx, hd]) _
  · obtain ⟨x, u, rfl⟩ := List.exists_cons_of_ne_nil hne
    exact stops_cons (hp _ (ht x List.mem_cons_self)) _

theorem IsFieldToken.stops_blank {text : List Cell} (h : IsFieldToken text) (t : List Cell) :
    Stops isBlank (text ++ t) :=
  h.stops (by decide) (by decide) (fun _ => isBlank_of_isFieldChar) t

/-- The text `SPAN(field, amount unit)`, in any case and with white space between its parts. -/
def IsSpan (text field amount unit : List Cell) : Prop :=
  ∃ word g₁ opening g₂ g₃ comma g₄ g₅ g₆ closing,
    text = word ++ (g₁ ++ opening :: (g₂ ++ (field ++ (g₃ ++ comma :: (g₄ ++ (amount ++
      (g₅ ++ (unit ++ (g₆ ++ [closing]))))))))) ∧
    word.map (fold ·.face) = "span".toList ∧ IsBlanks g₁ ∧ opening.face = '(' ∧ IsBlanks g₂ ∧
    IsFieldToken field ∧ IsBlanks g₃ ∧ comma.face = ',' ∧ IsBlanks g₄ ∧ IsAmount (faces amount) ∧
    IsBlanks g₅ ∧ (unit ≠ [] ∧ ∀ x ∈ unit, isLetter x.face = true) ∧ IsBlanks g₆ ∧
    closing.face = ')'

/-- The text of a time bucket before a rest: its parts, and the `AS` clause if one follows. -/
def IsBucketing (text : List Cell) (b : Bucketing) (rest : List Cell) : Prop :=
  ∃ span clause, text = span ++ clause ∧ IsSpan span b.field b.amount b.unit ∧
    IsLabelling clause b.label rest

theorem isBucketing_of_bucketing? {t rest : List Cell} {b : Bucketing}
    (h : bucketing? t = some (b, rest)) : ∃ text, t = text ++ rest ∧ IsBucketing text b rest := by
  simp only [bucketing?, Option.bind_eq_bind, Option.bind_eq_some_iff] at h
  obtain ⟨t₁, h₁, t₂, h₂, ⟨field, t₃⟩, h₃, t₄, h₄, ⟨amount, t₅⟩, h₅, ⟨unit, t₆⟩, h₆, t₇, h₇, h⟩ := h
  rcases hopt : optionalAlias t₇ with ⟨label, t₈⟩
  simp only [hopt, Option.pure_def, Option.some.injEq, Prod.mk.injEq] at h
  obtain ⟨rfl, rfl⟩ := h
  -- Each part with the white space before it, from the first to the last.
  obtain ⟨word, hword, rfl⟩ := skipKeyword?_eq_some_iff.1 h₁
  obtain ⟨opening, ho, hs₁⟩ := skipChar?_eq_some_iff.1 h₂
  obtain ⟨hfield, hs₂⟩ := (name?_eq_some_iff (by decide) (by decide)).1 h₃
  obtain ⟨comma, hc, hs₃⟩ := skipChar?_eq_some_iff.1 h₄
  obtain ⟨hamount, hs₄⟩ := isAmount_of_amount? h₅
  obtain ⟨hne, hunit, -, hs₅⟩ := run?_eq_some_iff.1 h₆
  obtain ⟨closing, hp, hs₆⟩ := skipChar?_eq_some_iff.1 h₇
  obtain ⟨clause, hclause, hl⟩ := optionalAlias_eq_iff.1 hopt
  obtain ⟨g₁, hg₁, e₁⟩ := isBlanks_skipped t₁
  obtain ⟨g₂, hg₂, e₂⟩ := isBlanks_skipped t₂
  obtain ⟨g₃, hg₃, e₃⟩ := isBlanks_skipped t₃
  obtain ⟨g₄, hg₄, e₄⟩ := isBlanks_skipped t₄
  obtain ⟨g₅, hg₅, e₅⟩ := isBlanks_skipped t₅
  obtain ⟨g₆, hg₆, e₆⟩ := isBlanks_skipped t₆
  refine ⟨_, ?_, _, clause, rfl, ⟨word, g₁, opening, g₂, g₃, comma, g₄, g₅, g₆, closing, rfl, hword,
    hg₁, ho, hg₂, hfield.isFieldToken, hg₃, hc, hg₄, hamount, hg₅, ⟨hne, hunit⟩, hg₆, hp⟩, hl⟩
  rw [e₁, hs₁, e₂, hs₂, e₃, hs₃, e₄, hs₄, e₅, hs₅, e₆, hs₆, hclause]
  simp only [List.append_assoc, List.cons_append, List.nil_append]

section

variable {gap : List Cell} (hg : IsBlanks gap)

include hg

/-- A sign is read behind white space. -/
theorem skipChar?_skipBlanks {c : Char} (hc : isBlank c = false) {x : Cell} (hx : x.face = c)
    (t : List Cell) : skipChar? c (skipBlanks (gap ++ x :: t)) = some t := by
  rw [hg.skipBlanks (stops_cons (by rw [hx, hc]) _)]
  exact skipChar?_eq_some_iff.2 ⟨x, hx, rfl⟩

theorem field?_skipBlanks {field t : List Cell} (hf : IsFieldToken field)
    (ht : Stops isFieldChar t) : field? (skipBlanks (gap ++ (field ++ t))) = some (field, t) := by
  rw [hg.skipBlanks (hf.stops_blank _)]
  exact (name?_eq_some_iff (by decide) (by decide)).2 ⟨hf.isName ht, rfl⟩

theorem amount?_skipBlanks {amount t : List Cell} (ha : IsAmount (faces amount))
    (hd : Stops Char.isDigit t) (hp : Stops (· = '.') t) :
    amount? (skipBlanks (gap ++ (amount ++ t))) = some (amount, t) := by
  have hpoint : skipChar? '.' t = none := by
    cases t with
    | nil => rfl
    | cons x t => exact if_neg (by simpa using hp x rfl)
  obtain ⟨x, u, hx, hax⟩ := IsAmount.exists_cons ha
  have hblank : Stops isBlank (amount ++ t) := by
    rw [hx]
    exact stops_cons (isBlank_of_isAliasChar hax) _
  rw [hg.skipBlanks hblank]
  exact amount?_append ha hd hpoint

theorem run?_skipBlanks {unit t : List Cell} (hne : unit ≠ [])
    (hunit : ∀ x ∈ unit, isLetter x.face = true) (ht : Stops isLetter t) :
    run? isLetter (skipBlanks (gap ++ (unit ++ t))) = some (unit, t) := by
  have hblank : Stops isBlank (unit ++ t) := by
    obtain ⟨x, u, rfl⟩ := List.exists_cons_of_ne_nil hne
    exact stops_cons (isBlank_of_isAliasChar (isAliasChar_of_isLetter
      (hunit x List.mem_cons_self))) _
  rw [hg.skipBlanks hblank]
  exact run?_append_of_stops hne hunit ht

end

theorem bucketing?_of_isBucketing {text rest : List Cell} {b : Bucketing}
    (h : IsBucketing text b rest) : bucketing? (text ++ rest) = some (b, rest) := by
  obtain ⟨field, amount, unit, label⟩ := b
  obtain ⟨span, clause, rfl, ⟨word, g₁, opening, g₂, g₃, comma, g₄, g₅, g₆, closing, rfl, hword,
    hg₁, ho, hg₂, hfield, hg₃, hc, hg₄, hamount, hg₅, ⟨hne, hunit⟩, hg₆, hp⟩, hl⟩ := h
  simp only at hfield hamount hne hunit hl
  simp only [List.append_assoc, List.cons_append, List.nil_append]
  generalize hu₆ : g₆ ++ closing :: (clause ++ rest) = u₆
  generalize hu₅ : g₅ ++ (unit ++ u₆) = u₅
  generalize hu₃ : g₃ ++ comma :: (g₄ ++ (amount ++ u₅)) = u₃
  -- What stops each part: the comma, the unit and the closing parenthesis, or white space before.
  have hstop₃ : Stops isFieldChar u₃ := by
    rw [← hu₃]
    exact hg₃.stops (fun c hb => by simp [isFieldChar, hb]) (stops_cons (by rw [hc]; decide) _)
  have hstop₅ {p : Char → Bool} (hb : ∀ c, isBlank c = true → p c = false)
      (hl : ∀ c, isLetter c = true → p c = false) : Stops p u₅ := by
    obtain ⟨x, u, rfl⟩ := List.exists_cons_of_ne_nil hne
    rw [← hu₅]
    exact hg₅.stops hb (stops_cons (hl _ (hunit x List.mem_cons_self)) _)
  have hdigit : Stops Char.isDigit u₅ :=
    hstop₅ (fun c => eq_false_of_isBlank fun _ => isAliasChar_of_isDigit)
      fun c => isDigit_of_isLetter
  have hpoint : Stops (· = '.') u₅ :=
    hstop₅ (fun c hb => decide_eq_false fun e => absurd (e ▸ hb) (by decide))
      fun c hl => decide_eq_false fun e => absurd (e ▸ hl) (by decide)
  have hstop₆ : Stops isLetter u₆ := by
    rw [← hu₆]
    exact hg₆.stops (fun c => eq_false_of_isBlank fun _ => isAliasChar_of_isLetter)
      (stops_cons (by rw [hp]; decide) _)
  have s₁ := skipChar?_skipBlanks hg₁ (by decide) ho (g₂ ++ (field ++ u₃))
  have s₂ := field?_skipBlanks hg₂ hfield hstop₃
  have s₃ := skipChar?_skipBlanks hg₃ (by decide) hc (g₄ ++ (amount ++ u₅))
  have s₄ := amount?_skipBlanks hg₄ hamount hdigit hpoint
  have s₅ := run?_skipBlanks hg₅ hne hunit hstop₆
  have s₆ := skipChar?_skipBlanks hg₆ (by decide) hp (clause ++ rest)
  have s₇ := optionalAlias_eq_iff.2 ⟨clause, rfl, hl⟩
  rw [hu₃] at s₃
  rw [hu₅] at s₅
  rw [hu₆] at s₆
  simp only [bucketing?, skipKeyword?_eq_some_iff.2 ⟨word, hword, rfl⟩, Option.bind_eq_bind,
    Option.bind_some, s₁, s₂, s₃, s₄, s₅, s₆, s₇]
  rfl

/-- A time bucket is read just where the text of one stands, up to the end of that text. -/
theorem bucketing?_eq_some_iff {t rest : List Cell} {b : Bucketing} :
    bucketing? t = some (b, rest) ↔ ∃ text, t = text ++ rest ∧ IsBucketing text b rest := by
  constructor
  · exact isBucketing_of_bucketing?
  · rintro ⟨text, rfl, h⟩
    exact bucketing?_of_isBucketing h

end QueryStats.Query
