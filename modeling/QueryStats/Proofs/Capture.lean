import Mathlib.Data.List.TakeWhile
import QueryStats.Proofs.Scanning

/-!
# What the recognisers capture

A recogniser that starts outside quoted runs captures whole runs only.  So an argument is closed, an
alias lacks one of the quotes, and an amount and a unit stand for themselves, whatever the query.
Where a recogniser starts with a letter it starts outside quoted runs, since only blanks and the
closing quote show in a run.
-/

namespace QueryStats.Query

open Text

/-! ## Places outside quoted runs -/

/-- Whether masked text is what is left of the masked form of a text at a place outside quoted
runs. -/
def Outside (s : List Char) (t : List Cell) : Prop :=
  ∃ s₁ s₂, s = s₁ ++ s₂ ∧ Balanced s₁ ∧ t = mask s₂

/-- A cell that shows neither a blank nor a quote stands outside quoted runs. -/
theorem outside_cons {s : List Char} {x : Cell} {t : List Cell} (h : x :: t <:+ mask s)
    (hb : x.face ≠ ' ') (hq : isQuote x.face = false) : Outside s (x :: t) := by
  obtain ⟨a, ha⟩ := h
  obtain ⟨s₁, s₂, hs, h₁, -, h₂⟩ := mask_cut ha.symm hb hq
  exact ⟨s₁, x.face :: s₂, hs, h₁, h₂⟩

theorem Outside.suffix {s : List Char} {t : List Cell} (h : Outside s t) : t <:+ mask s := by
  obtain ⟨s₁, s₂, rfl, h₁, rfl⟩ := h
  rw [mask_append h₁]
  exact List.suffix_append _ _

/-- No quote shows before the next place, so the cells on the way stand for themselves. -/
theorem Outside.append {s : List Char} {a b : List Cell} (h : Outside s (a ++ b))
    (ha : ∀ x ∈ a, isQuote x.face = false) : a = shown (faces a) ∧ Outside s b := by
  induction a with
  | nil => exact ⟨rfl, h⟩
  | cons x a ih =>
    rw [List.forall_mem_cons] at ha
    obtain ⟨s₁, s₂, rfl, h₁, ht⟩ := h
    cases s₂ with
    | nil => cases ht
    | cons c s₂ =>
      rw [mask, maskFrom_none_cons, List.cons_append, List.cons.injEq] at ht
      obtain ⟨rfl, ht⟩ := ht
      have hc : nextQuote none c = none := nextQuote_none_of_not_quote ha.1
      rw [hc] at ht
      have hs : Balanced (s₁ ++ [c]) := h₁.append (by rw [Balanced, quoteAfter_cons, hc]; rfl)
      obtain ⟨hx, hb⟩ := ih ⟨s₁ ++ [c], s₂, by simp, hs, ht⟩ ha.2
      refine ⟨?_, hb⟩
      rw [faces_cons, shown_cons, ← hx]
      rfl

theorem isQuote_of_isBlank {c : Char} (h : isBlank c = true) : isQuote c = false := by
  rw [← Bool.not_eq_true]
  intro hq
  rw [isBlank_quote hq] at h
  cases h

/-- Where a run without quotes was skipped, the next place is outside quoted runs too. -/
theorem Outside.dropWhile {s : List Char} {p : Cell → Bool}
    (hp : ∀ x, p x = true → isQuote x.face = false) {t : List Cell} (h : Outside s t) :
    Outside s (t.dropWhile p) := by
  rw [← List.takeWhile_append_dropWhile (p := p) (l := t)] at h
  exact (h.append fun x hx => hp x (List.mem_takeWhile_imp hx)).2

theorem Outside.skipBlanks {s : List Char} {t : List Cell} (h : Outside s t) :
    Outside s (skipBlanks t) := h.dropWhile fun _ => isQuote_of_isBlank

theorem isQuote_of_isGap {x : Cell} (h : x.isGap = true) : isQuote x.face = false := by
  rw [Cell.isGap, Bool.or_eq_true, decide_eq_true_eq] at h
  rcases h with hb | hc
  · exact isQuote_of_isBlank hb
  · rw [hc]
    rfl

theorem Outside.skipSomeBlanks? {s : List Char} {t rest : List Cell} (h : Outside s t)
    (hr : skipSomeBlanks? t = some rest) : Outside s rest := by
  cases t with
  | nil => cases hr
  | cons x t =>
    rw [Query.skipSomeBlanks?] at hr
    split at hr
    · next hx =>
      have hb : Outside s (Query.skipBlanks (x :: t)) := h.skipBlanks
      rw [Query.skipBlanks, List.dropWhile_cons, if_pos hx] at hb
      rw [← Option.some.inj hr]
      exact hb
    · cases hr

/-- A sign stands outside quoted runs, and so does what follows it. -/
theorem outside_of_skipChar? {s : List Char} {c : Char} (hc : c ≠ ' ') (hq : isQuote c = false)
    {t rest : List Cell} (ht : t <:+ mask s) (hr : skipChar? c t = some rest) :
    Outside s rest := by
  cases t with
  | nil => cases hr
  | cons x t =>
    rw [skipChar?] at hr
    split at hr
    · next hx =>
      rw [← Option.some.inj hr]
      have ho : Outside s ([x] ++ t) := outside_cons ht (by rwa [hx]) (by rwa [hx])
      exact (ho.append (by simpa [hx] using hq)).2
    · cases hr

/-- A keyword stands outside quoted runs, and so does what follows it. -/
theorem outside_of_skipKeyword? {s : List Char} {keyword : String} (hne : keyword.toList ≠ [])
    (hk : ∀ c ∈ keyword.toList, c.isLower = true) {t rest : List Cell} (ht : t <:+ mask s)
    (hr : skipKeyword? keyword t = some rest) : Outside s rest := by
  obtain ⟨word, rfl, hw⟩ := dropKeyword?_append hr
  have hl := isAliasChar_of_fold hw hk
  cases word with
  | nil => exact absurd hw.symm hne
  | cons x word =>
    have hx := hl x List.mem_cons_self
    have ho : Outside s (x :: word ++ rest) := by
      refine outside_cons ht ?_ (isQuote_of_isAliasChar hx)
      intro he
      rw [he] at hx
      exact absurd hx (by decide)
    exact (ho.append fun y hy => isQuote_of_isAliasChar (hl y hy)).2

/-! ## Runs and quoted runs -/

theorem forall_of_run? {p : Char → Bool} {t run rest : List Cell}
    (h : run? p t = some (run, rest)) : ∀ x ∈ run, p x.face = true := by
  rw [run?] at h
  split at h
  · cases h
  · next y r heq =>
    rw [Option.some.injEq, Prod.mk.injEq] at h
    obtain ⟨rfl, -⟩ := h
    intro x hx
    rw [← heq] at hx
    exact List.mem_takeWhile_imp (p := fun x : Cell => p x.face) hx

/-- A quoted run is captured whole. -/
theorem Outside.quoted? {s : List Char} {q : Char} {t name rest : List Cell} (h : Outside s t)
    (hq : isQuote q = true) (hr : quoted? q t = some (name, rest)) :
    (∃ body, q ∉ body ∧ sources name = q :: (body ++ [q])) ∧ Outside s rest := by
  obtain ⟨s₁, s₂, rfl, h₁, rfl⟩ := h
  cases s₂ with
  | nil => cases hr
  | cons c s₂ =>
    by_cases hc : c = q
    · subst hc
      by_cases hm : c ∈ s₂
      · obtain ⟨body, s₃, rfl, hb⟩ := List.eq_append_cons_of_mem hm
        have hrun := balanced_quoted hq hb
        have hs : c :: (body ++ c :: s₃) = c :: (body ++ [c]) ++ s₃ := by simp
        rw [hs, mask_append hrun, quoted?_mask hq hb, Option.some.injEq, Prod.mk.injEq] at hr
        obtain ⟨rfl, rfl⟩ := hr
        exact ⟨⟨body, hb, sources_mask _⟩,
          s₁ ++ c :: (body ++ [c]), s₃, by simp, h₁.append hrun, rfl⟩
      · have hd : (maskFrom (some c) s₂).dropWhile (·.face != c) = [] := by
          rw [List.dropWhile_eq_nil_iff]
          intro x hx
          rw [face_of_mem_maskFrom_some hm hx, bne_iff_ne]
          rintro rfl
          exact absurd hq (by decide)
        rw [mask, maskFrom_none_cons, nextQuote, if_pos hq, Query.quoted?, hd] at hr
        split at hr <;> cases hr
    · rw [mask, maskFrom_none_cons, quoted?_of_face_ne (by exact hc)] at hr
      cases hr

/-- What a name as written can be: a quoted run, or a run of bare characters. -/
theorem Outside.name? {s : List Char} {p : Char → Bool} {t name rest : List Cell}
    (h : Outside s t) (hr : name? p t = some (name, rest)) :
    (∃ q body, (q = backQuote ∨ q = doubleQuote) ∧ q ∉ body ∧
      sources name = q :: (body ++ [q])) ∨ ∀ x ∈ name, p x.face = true := by
  rw [Query.name?, Option.or_eq_some_iff, Option.or_eq_some_iff] at hr
  rcases hr with hr | ⟨-, hr | ⟨-, hr⟩⟩
  · obtain ⟨⟨body, hb, hs⟩, -⟩ := h.quoted? (by decide) hr
    exact Or.inl ⟨backQuote, body, Or.inl rfl, hb, hs⟩
  · obtain ⟨⟨body, hb, hs⟩, -⟩ := h.quoted? (by decide) hr
    exact Or.inl ⟨doubleQuote, body, Or.inr rfl, hb, hs⟩
  · exact Or.inr (forall_of_run? hr)

/-! ## Labels -/

/-- Whether a text can be written as an alias: it is trimmed, and one of the two quotes of an alias
is not in it. -/
structure IsLabel (t : List Char) : Prop where
  trimmed : trim t = t
  quotable : backQuote ∉ t ∨ doubleQuote ∉ t

theorem isLabel_nil : IsLabel [] := ⟨rfl, Or.inl List.not_mem_nil⟩

theorem alias?_isLabel {s : List Char} {t name rest : List Cell} (ht : t <:+ mask s)
    (h : alias? t = some (name, rest)) : IsLabel (unquoteChars (sources name)) := by
  simp only [alias?, Option.bind_eq_bind, Option.bind_eq_some_iff] at h
  obtain ⟨t₁, h₁, t₂, h₂, t₃, h₃, h₄⟩ := h
  have ho₂ : Outside s t₂ := outside_of_skipKeyword? (by decide) (by decide)
    ((skipSomeBlanks?_suffix h₁).trans ht) h₂
  have ho₃ : Outside s t₃ := ho₂.skipSomeBlanks? h₃
  refine ⟨trim_unquoteChars _, ?_⟩
  rcases ho₃.name? h₄ with ⟨q, body, rfl | rfl, hb, hn⟩ | hn
  · rw [hn, unquoteChars_backQuoted]
    exact Or.inl fun hm => hb (mem_of_mem_trim hm)
  · rw [hn, unquoteChars_doubleQuoted]
    exact Or.inr fun hm => hb (mem_of_mem_trim hm)
  · have hq : ∀ x ∈ name, isQuote x.face = false := fun x hx => isQuote_of_isAliasChar (hn x hx)
    have hs := ((name?_append h₄).2 ▸ ho₃).append hq
    have hf : ∀ c ∈ faces name, isQuote c = false := by
      intro c hc
      obtain ⟨x, hx, rfl⟩ := List.mem_map.1 hc
      exact hq x hx
    rw [hs.1, sources_shown, unquoteChars_unquoted hf]
    refine Or.inl fun hm => ?_
    exact absurd (hf _ (mem_of_mem_trim hm)) (by decide)

/-- The name that an optional label spells can be written as an alias. -/
theorem labelName_optionalAlias {s : List Char} {t : List Cell} (ht : t <:+ mask s) :
    ∃ l, labelName (optionalAlias t).1 = String.ofList l ∧ IsLabel l := by
  rw [optionalAlias]
  split
  · next name rest h => exact ⟨_, rfl, alias?_isLabel ht h⟩
  · exact ⟨[], rfl, isLabel_nil⟩

/-! ## Calls -/

/-- A run of ASCII characters stands for itself. -/
theorem run?_captures {p : Char → Bool} (hp : ∀ c, p c = true → isAliasChar c = true)
    {s : List Char} {t run rest : List Cell} (ht : t <:+ mask s) (h : run? p t = some (run, rest)) :
    Outside s t ∧ Outside s rest ∧ ∃ w, run = shown w ∧ w ≠ [] ∧ ∀ c ∈ w, p c = true := by
  obtain ⟨hne, rfl⟩ := run?_append h
  have hr := forall_of_run? h
  have hq : ∀ x ∈ run, isQuote x.face = false := fun x hx => isQuote_of_isAliasChar (hp _ (hr x hx))
  obtain ⟨x, u, rfl⟩ := List.exists_cons_of_ne_nil hne
  have ho : Outside s (x :: u ++ rest) := by
    refine outside_cons ht ?_ (hq x List.mem_cons_self)
    intro he
    have hx := hp _ (hr x List.mem_cons_self)
    rw [he] at hx
    exact absurd hx (by decide)
  obtain ⟨hs, hrest⟩ := ho.append hq
  refine ⟨ho, hrest, faces (x :: u), hs, by simp, ?_⟩
  intro c hc
  obtain ⟨y, hy, rfl⟩ := List.mem_map.1 hc
  exact hr y hy

/-- Whether a text can be the argument of a call: it leaves no quoted run open, no parenthesis shows
in it, and no comment opens in it. -/
structure IsArgument (t : List Char) : Prop where
  balanced : Balanced t
  noParenthesis : ∀ c ∈ faces (mask t), isParenthesis c = false
  commentFree : CommentFree t

/-- The part of an argument between two unquoted ones is an argument. -/
theorem IsArgument.of_append {a t b : List Char} (ha : ∀ c ∈ a, isQuote c = false)
    (hb : ∀ c ∈ b, isQuote c = false) (h : IsArgument (a ++ (t ++ b))) : IsArgument t := by
  have ht : Balanced t := by
    have htb := (balanced_of_unquoted ha).of_append h.balanced
    rw [Balanced, quoteAfter_append] at htb
    rcases hq : quoteAfter none t with _ | q
    · exact hq
    · have hn : q ∉ b := fun hm => by
        have := (namesQuote_none.after t) q hq
        rw [hb q hm] at this
        cases this
      rw [hq, quoteAfter_some_of_notMem hn] at htb
      cases htb
  have hm : mask (a ++ (t ++ b)) = mask a ++ (mask t ++ mask b) := by
    rw [mask_append (balanced_of_unquoted ha), mask_append ht]
  refine ⟨ht, fun c hc => h.noParenthesis c ?_, ?_⟩
  · rw [hm, faces_append, faces_append]
    simp [hc]
  · exact (CommentFree.of_append ht (CommentFree.of_append (balanced_of_unquoted ha)
      h.commentFree).2).1

theorem IsArgument.trim {t : List Char} (h : IsArgument t) : IsArgument (trim t) := by
  obtain ⟨a, b, ht, ha, hb⟩ := exists_append_trim t
  rw [ht] at h
  exact h.of_append (fun c hc => isQuote_of_isBlank (ha c hc))
    fun c hc => isQuote_of_isBlank (hb c hc)

/-- What stands between an opening and a closing parenthesis is an argument. -/
theorem argument_captures {s : List Char} (hs : CommentFree s) {t rest : List Cell}
    (ht : Outside s t) (h : skipChar? ')' (t.dropWhile (!isParenthesis ·.face)) = some rest) :
    ∃ v, t.takeWhile (!isParenthesis ·.face) = mask v ∧ IsArgument v := by
  obtain ⟨s₁, s₂, rfl, hb, rfl⟩ := ht
  obtain ⟨x, hx, hface⟩ : ∃ x, (mask s₂).dropWhile (!isParenthesis ·.face) = x :: rest ∧
      x.face = ')' := by
    rcases hd : (mask s₂).dropWhile (!isParenthesis ·.face) with _ | ⟨x, u⟩
    · rw [hd] at h
      cases h
    · rw [hd, skipChar?] at h
      split at h
      · next hf => exact ⟨x, by rw [hd, Option.some.inj h], hf⟩
      · cases h
  have hsplit : mask s₂ = (mask s₂).takeWhile (!isParenthesis ·.face) ++ x :: rest := by
    rw [← hx, List.takeWhile_append_dropWhile]
  obtain ⟨v, v', rfl, hv, ha, -⟩ := mask_cut hsplit (by simp [hface]) (by rw [hface]; rfl)
  have hfree : CommentFree v := (CommentFree.of_append hv (CommentFree.of_append hb hs).2).1
  refine ⟨v, ha, hv, fun c hc => ?_, hfree⟩
  rw [← ha] at hc
  obtain ⟨y, hy, rfl⟩ := List.mem_map.1 hc
  have hp := List.mem_takeWhile_imp (p := fun y : Cell => !isParenthesis y.face) hy
  simpa using hp

/-- A call captures a name, an argument and a label that can be written again. -/
theorem call?_captures {s : List Char} (hs : CommentFree s) {t rest : List Cell} {c : Call}
    (ht : t <:+ mask s) (h : call? t = some (c, rest)) :
    (∃ w, c.name = shown w ∧ w.head?.any isNameStart = true ∧ ∀ d ∈ w, isNameChar d = true) ∧
      (∃ v, c.argument = mask v ∧ IsArgument v) ∧
      ∃ l, labelName c.label = String.ofList l ∧ IsLabel l := by
  simp only [call?, Option.bind_eq_bind, Option.bind_eq_some_iff] at h
  obtain ⟨⟨name, r₁⟩, h₁, h⟩ := h
  simp only at h
  split at h
  · cases h
  next hstart =>
  simp only [Option.bind_eq_some_iff] at h
  obtain ⟨r₂, h₂, r₃, h₃, h⟩ := h
  simp only [Option.pure_def, Option.some.injEq, Prod.mk.injEq] at h
  obtain ⟨rfl, rfl⟩ := h
  obtain ⟨-, ho₁, w, rfl, hw, hn⟩ := run?_captures (fun _ => isAliasChar_of_isNameChar) ht h₁
  have ho₂ : Outside s r₂ := outside_of_skipChar? (by decide) (by decide) ho₁.suffix h₂
  have hr₃ : r₃ <:+ mask s :=
    (skipChar?_leaves h₃).suffix.trans ((List.dropWhile_suffix _).trans ho₂.suffix)
  have hstarts : w.head?.any isNameStart = true := by
    cases w with
    | nil => exact absurd rfl hw
    | cons d w => simpa using hstart
  exact ⟨⟨w, rfl, hstarts, hn⟩, argument_captures hs ho₂ h₃, labelName_optionalAlias hr₃⟩

/-! ## Time buckets -/

/-- The fraction of an amount is a point and digits, or nothing. -/
theorem fraction_captures {s : List Char} {t : List Cell} (ht : Outside s t) :
    (fraction t).1 = [] ∨ ∃ w, (fraction t).1 = shown ('.' :: w) ∧ Written.IsDigits w := by
  simp only [fraction]
  split
  · next digits rest x u h =>
    obtain ⟨v, hv, hr⟩ := Option.bind_eq_some_iff.1 h
    rw [skipChar?] at hv
    split at hv
    · next hx =>
      obtain rfl := Option.some.inj hv
      have ho : Outside s ([x] ++ u) := ht
      have hq : ∀ y ∈ [x], isQuote y.face = false := by
        intro y hy
        rw [List.mem_singleton.1 hy, hx]
        rfl
      obtain ⟨hp, hu⟩ := ho.append hq
      obtain ⟨-, -, w, rfl, hw⟩ := run?_captures (fun _ => isAliasChar_of_isDigit) hu.suffix hr
      refine Or.inr ⟨w, ?_, hw⟩
      rw [shown_cons, ← hx]
      exact congrArg (· ++ shown w) hp
    · cases hv
  · exact Or.inl rfl

/-- A time bucket captures an amount, a unit and a label that can be written again. -/
theorem bucketing?_captures {s : List Char} {t rest : List Cell} {b : Bucketing}
    (ht : t <:+ mask s) (h : bucketing? t = some (b, rest)) :
    (∃ w, b.amount = shown w ∧ Written.IsAmount w) ∧
      (∃ w, b.unit = shown w ∧ w ≠ [] ∧ ∀ c ∈ w, isLetter c = true) ∧
      ∃ l, labelName b.label = String.ofList l ∧ IsLabel l := by
  simp only [bucketing?, Option.bind_eq_bind, Option.bind_eq_some_iff] at h
  obtain ⟨t₁, h₁, t₂, h₂, ⟨field, t₃⟩, h₃, t₄, h₄, ⟨amount, t₅⟩, h₅, ⟨unit, t₆⟩, h₆, t₇, h₇, h⟩ := h
  simp only [Option.pure_def, Option.some.injEq, Prod.mk.injEq] at h
  obtain ⟨rfl, -⟩ := h
  have hs₂ : t₂ <:+ mask s := (skipChar?_leaves h₂).suffix.trans
    ((skipBlanks_suffix t₁).trans ((skipKeyword?_suffix h₁).trans ht))
  have hs₄ : t₄ <:+ mask s := (skipChar?_leaves h₄).suffix.trans ((skipBlanks_suffix t₃).trans
    ((leaves_of_append (name?_append h₃)).suffix.trans ((skipBlanks_suffix t₂).trans hs₂)))
  have hs₅ : t₅ <:+ mask s := (amount?_leaves h₅).suffix.trans ((skipBlanks_suffix t₄).trans hs₄)
  obtain ⟨-, ho₆, unit, rfl, hunit⟩ :=
    run?_captures (fun _ => isAliasChar_of_isLetter) ((skipBlanks_suffix t₅).trans hs₅) h₆
  have hs₇ : t₇ <:+ mask s := (skipChar?_leaves h₇).suffix.trans
    ((skipBlanks_suffix t₆).trans ho₆.suffix)
  refine ⟨?_, ⟨unit, rfl, hunit⟩, labelName_optionalAlias hs₇⟩
  simp only [amount?, Option.bind_eq_bind, Option.bind_eq_some_iff] at h₅
  obtain ⟨⟨whole, r⟩, hwhole, h₅⟩ := h₅
  simp only [Option.pure_def, Option.some.injEq, Prod.mk.injEq] at h₅
  obtain ⟨rfl, -⟩ := h₅
  obtain ⟨-, hor, whole, rfl, hw⟩ :=
    run?_captures (fun _ => isAliasChar_of_isDigit) ((skipBlanks_suffix t₄).trans hs₄) hwhole
  rcases fraction_captures hor with hp | ⟨part, hp, hd⟩
  · exact ⟨whole, by rw [hp, List.append_nil], Or.inl hw⟩
  · exact ⟨whole ++ '.' :: part, by rw [hp, shown_append], Or.inr ⟨whole, part, hw, hd, rfl⟩⟩

/-! ## Pieces -/

/-- Whether what a piece was read as was recognised somewhere in a text. -/
def Piece.FoundIn (t : List Cell) : Piece → Prop
  | .call _ c _ => ∃ u rest, u <:+ t ∧ call? u = some (c, rest)
  | .bucketing _ b => ∃ u rest, u <:+ t ∧ Query.bucketing? u = some (b, rest)
  | _ => True

theorem Piece.FoundIn.of_suffix {t u : List Cell} {p : Piece} (h : p.FoundIn u) (hu : u <:+ t) :
    p.FoundIn t := by
  cases p with
  | call _ c _ =>
    obtain ⟨v, rest, hv, hc⟩ := h
    exact ⟨v, rest, hv.trans hu, hc⟩
  | bucketing _ b =>
    obtain ⟨v, rest, hv, hb⟩ := h
    exact ⟨v, rest, hv.trans hu, hb⟩
  | _ => trivial

theorem foundIn_item? {t rest : List Cell} {p : Piece} (h : item? t = some (p, rest)) :
    p.FoundIn t := by
  rw [item?] at h
  split at h
  · next b r hb =>
    rw [Option.some.injEq, Prod.mk.injEq] at h
    obtain ⟨rfl, rfl⟩ := h
    exact ⟨t, r, List.suffix_rfl, hb⟩
  · rw [Option.map_eq_some_iff] at h
    obtain ⟨⟨name, r⟩, -, h⟩ := h
    rw [Prod.mk.injEq] at h
    obtain ⟨rfl, rfl⟩ := h
    split <;> trivial

theorem foundIn_listPieces (t : List Cell) : ∀ p ∈ (listPieces t).1, p.FoundIn t := by
  fun_induction listPieces t with
  | case1 t gap h =>
    intro p hp
    rw [List.mem_singleton.1 hp]
    trivial
  | case2 t gap item rest h hc ih =>
    have hd : t.dropWhile Cell.isGap <:+ t := List.dropWhile_suffix _
    intro p hp
    rw [List.mem_cons, List.mem_cons] at hp
    rcases hp with rfl | rfl | hp
    · trivial
    · exact (foundIn_item? h).of_suffix hd
    · exact (ih p hp).of_suffix ((item?_leaves h).suffix.trans hd)
  | case3 t gap item rest h hc =>
    intro p hp
    rw [List.mem_cons, List.mem_singleton] at hp
    rcases hp with rfl | rfl
    · trivial
    · exact (foundIn_item? h).of_suffix (List.dropWhile_suffix _)

theorem foundIn_read? {seen : List Char} {t rest : List Cell} {ps : List Piece}
    (h : read? seen t = some (ps, rest)) : ∀ p ∈ ps, p.FoundIn t := by
  simp only [read?] at h
  split at h
  · cases h
  split at h
  · next c r hc =>
    rw [Option.some.injEq, Prod.mk.injEq] at h
    obtain ⟨rfl, -⟩ := h
    intro p hp
    rw [List.mem_singleton.1 hp]
    exact ⟨t, r, List.suffix_rfl, hc⟩
  · rw [Option.map_eq_some_iff] at h
    obtain ⟨⟨opens, r⟩, hk, h⟩ := h
    cases opens with
    | false =>
      obtain ⟨rfl, -⟩ := Prod.mk.inj h
      intro p hp
      rw [List.mem_singleton.1 hp]
      trivial
    | true =>
      obtain ⟨rfl, -⟩ := Prod.mk.inj h
      intro p hp
      rcases List.mem_cons.1 hp with rfl | hp
      · trivial
      · exact (foundIn_listPieces r p hp).of_suffix (groupingKeyword?_leaves hk).suffix

/-- Every piece of a scan was recognised in the text. -/
theorem foundIn_piecesFrom (seen : List Char) (t : List Cell) :
    ∀ p ∈ piecesFrom seen t, p.FoundIn t := by
  fun_induction piecesFrom seen t with
  | case1 =>
    intro p hp
    cases hp
  | case2 seen x t ps rest h ih =>
    intro p hp
    rcases List.mem_append.1 hp with hp | hp
    · exact foundIn_read? h p hp
    · exact (ih p hp).of_suffix (read?_leaves h).suffix
  | case3 seen x t h ih =>
    intro p hp
    rcases List.mem_cons.1 hp with rfl | hp
    · trivial
    · exact (ih p hp).of_suffix (List.suffix_cons x t)

/-- A call that asks for an aggregation was recognised in the text. -/
theorem call?_of_mem_requested {t : List Cell} {ps : List Piece} (h : ∀ p ∈ ps, p.FoundIn t)
    {c : Call} (hc : c ∈ ps.filterMap Piece.requested?) :
    ∃ u rest, u <:+ t ∧ call? u = some (c, rest) := by
  obtain ⟨p, hp, hpc⟩ := List.mem_filterMap.1 hc
  cases p with
  | call text d requested =>
    cases requested with
    | false => cases hpc
    | true =>
      obtain rfl := Option.some.inj hpc
      exact h _ hp
  | _ => cases hpc

theorem bucketing?_of_mem {t : List Cell} {ps : List Piece} (h : ∀ p ∈ ps, p.FoundIn t)
    {b : Bucketing} (hb : b ∈ ps.filterMap Piece.bucketing?) :
    ∃ u rest, u <:+ t ∧ bucketing? u = some (b, rest) := by
  obtain ⟨p, hp, hpb⟩ := List.mem_filterMap.1 hb
  cases p with
  | bucketing text c =>
    obtain rfl := Option.some.inj hpb
    exact h _ hp
  | _ => cases hpb

end QueryStats.Query
