import QueryStats.Proofs.Capture

/-!
# Recognisers stop at a pipe

Before a pipe a recogniser reads what it reads before the end of the text.  A run of characters
stops at either.  A quoted run does too when it is closed before the pipe, and so does an argument
when a parenthesis comes before the pipe; a `Pipeable` text is one that ensures both.
-/

namespace QueryStats.Query

open Text

/-- Masked text from a pipe on. -/
def fromPipe (r : List Cell) : List Cell := .plain '|' :: r

theorem stops_fromPipe {p : Char → Bool} (hp : p '|' = false) (r : List Cell) :
    Stops p (fromPipe r) := stops_cons hp r

/-! ## Runs -/

section

variable {p : Char → Bool} (hp : p '|' = false) (t r : List Cell)

include hp

theorem takeWhile_append_fromPipe :
    (t ++ fromPipe r).takeWhile (p ·.face) = t.takeWhile (p ·.face) :=
  (takeWhile_dropWhile_append (Or.inr (stops_fromPipe hp r))).1

theorem dropWhile_append_fromPipe :
    (t ++ fromPipe r).dropWhile (p ·.face) = t.dropWhile (p ·.face) ++ fromPipe r :=
  (takeWhile_dropWhile_append (Or.inr (stops_fromPipe hp r))).2

theorem run?_append_fromPipe :
    run? p (t ++ fromPipe r) = (run? p t).map (Prod.map id (· ++ fromPipe r)) := by
  rw [run?, run?, takeWhile_append_fromPipe hp, dropWhile_append_fromPipe hp]
  cases t.takeWhile (p ·.face) <;> rfl

end

theorem skipBlanks_append_fromPipe (t r : List Cell) :
    skipBlanks (t ++ fromPipe r) = skipBlanks t ++ fromPipe r :=
  dropWhile_append_fromPipe (p := Text.isBlank) (by decide) t r

theorem skipSomeBlanks?_append_fromPipe (t r : List Cell) :
    skipSomeBlanks? (t ++ fromPipe r) = (skipSomeBlanks? t).map (· ++ fromPipe r) := by
  cases t with
  | nil => rfl
  | cons x t =>
    rw [List.cons_append, skipSomeBlanks?, skipSomeBlanks?, skipBlanks_append_fromPipe]
    split <;> rfl

theorem skipChar?_append_fromPipe {c : Char} (hc : c ≠ '|') (t r : List Cell) :
    skipChar? c (t ++ fromPipe r) = (skipChar? c t).map (· ++ fromPipe r) := by
  cases t with
  | nil => exact if_neg (Ne.symm hc)
  | cons x t =>
    rw [List.cons_append, skipChar?, skipChar?]
    split <;> rfl

theorem dropKeyword?_append_fromPipe {letter : Cell → Char} {ks : List Char}
    (hk : letter (.plain '|') ∉ ks) (t r : List Cell) :
    dropKeyword? letter ks (t ++ fromPipe r) =
      (dropKeyword? letter ks t).map (· ++ fromPipe r) := by
  induction ks generalizing t with
  | nil => rfl
  | cons k ks ih =>
    rw [List.mem_cons, not_or] at hk
    cases t with
    | nil => exact if_neg hk.1
    | cons x t =>
      rw [List.cons_append, dropKeyword?, dropKeyword?, ih hk.2]
      split <;> rfl

theorem skipKeyword?_append_fromPipe {k : String} (hk : '|' ∉ k.toList) (t r : List Cell) :
    skipKeyword? k (t ++ fromPipe r) = (skipKeyword? k t).map (· ++ fromPipe r) :=
  dropKeyword?_append_fromPipe hk t r

/-! ## Names -/

/-- Whether a pipe may follow a text: the quoted runs of the text are closed, and the last
parenthesis that it shows, if any, closes. -/
structure Pipeable (s : List Char) : Prop where
  balanced : Balanced s
  parenthesis : ((faces (mask s)).filter isParenthesis).getLast? ≠ some '('

variable {s : List Char} (hs : Pipeable s)

/-- A quoted run that opens in the text is closed in it. -/
theorem exists_face_eq_of_balanced {q : Char} (hq : isQuote q = true) {t : List Char}
    (h : Balanced (q :: t)) : ∃ x ∈ maskFrom (some q) t, (x.face != q) = false := by
  have hm : q ∈ t := by
    by_contra hn
    rw [Balanced, quoteAfter_cons, nextQuote, if_pos hq, quoteAfter_some_of_notMem hn] at h
    cases h
  obtain ⟨body, u, rfl, hb⟩ := List.eq_append_cons_of_mem hm
  refine ⟨.plain q, ?_, by simp⟩
  rw [maskFrom_append, quoteAfter_some_of_notMem hb, maskFrom_self_cons]
  simp

include hs in
theorem quoted?_append_fromPipe {q : Char} (hq : isQuote q = true) {t : List Cell}
    (ht : Outside s t) (r : List Cell) :
    quoted? q (t ++ fromPipe r) = (quoted? q t).map (Prod.map id (· ++ fromPipe r)) := by
  obtain ⟨s₁, s₂, rfl, h₁, rfl⟩ := ht
  have hb := h₁.of_append hs.balanced
  cases s₂ with
  | nil =>
    refine if_neg ?_
    rintro rfl
    exact absurd hq (by decide)
  | cons c s₂ =>
    by_cases hc : c = q
    · subst hc
      obtain ⟨x, hx, hf⟩ := exists_face_eq_of_balanced hq hb
      have hm := takeWhile_dropWhile_append (p := (·.face != c)) (u := fromPipe r)
        (Or.inl ⟨x, hx, hf⟩)
      rw [mask, maskFrom_none_cons, nextQuote, if_pos hq, List.cons_append, quoted?, quoted?,
        face_plain, if_pos rfl, if_pos rfl, hm.1, hm.2]
      cases hd : (maskFrom (some c) s₂).dropWhile (·.face != c) with
      | nil =>
        have hn := List.dropWhile_eq_nil_iff.1 hd x hx
        rw [hf] at hn
        cases hn
      | cons y u => rfl
    · rw [mask, maskFrom_none_cons, List.cons_append, quoted?_of_face_ne (by exact hc),
        quoted?_of_face_ne (by exact hc)]
      rfl

include hs in
theorem name?_append_fromPipe {p : Char → Bool} (hp : p '|' = false) {t : List Cell}
    (ht : Outside s t) (r : List Cell) :
    name? p (t ++ fromPipe r) = (name? p t).map (Prod.map id (· ++ fromPipe r)) := by
  rw [name?, name?, quoted?_append_fromPipe hs (by decide) ht,
    quoted?_append_fromPipe hs (by decide) ht, run?_append_fromPipe hp, Option.map_or,
    Option.map_or]

include hs in
theorem alias?_append_fromPipe {t : List Cell} (ht : t <:+ mask s) (r : List Cell) :
    alias? (t ++ fromPipe r) = (alias? t).map (Prod.map id (· ++ fromPipe r)) := by
  simp only [alias?, skipSomeBlanks?_append_fromPipe, Option.bind_eq_bind]
  rcases h₁ : skipSomeBlanks? t with _ | t₁
  · rfl
  simp only [Option.map_some, Option.bind_some,
    skipKeyword?_append_fromPipe (k := "as") (by decide)]
  rcases h₂ : skipKeyword? "as" t₁ with _ | t₂
  · rfl
  have ho₂ : Outside s t₂ := outside_of_skipKeyword? (by decide) (by decide)
    ((skipSomeBlanks?_suffix h₁).trans ht) h₂
  simp only [Option.map_some, Option.bind_some, skipSomeBlanks?_append_fromPipe]
  rcases h₃ : skipSomeBlanks? t₂ with _ | t₃
  · rfl
  exact name?_append_fromPipe hs (by decide) (ho₂.skipSomeBlanks? h₃) r

include hs in
theorem optionalAlias_append_fromPipe {t : List Cell} (ht : t <:+ mask s) (r : List Cell) :
    optionalAlias (t ++ fromPipe r) = Prod.map id (· ++ fromPipe r) (optionalAlias t) := by
  rw [optionalAlias, optionalAlias, alias?_append_fromPipe hs ht]
  cases alias? t <;> rfl

/-! ## Calls -/

include hs in
/-- After an opening parenthesis another parenthesis shows. -/
theorem exists_parenthesis {x : Cell} {t : List Cell} (hx : x.face = '(')
    (ht : x :: t <:+ mask s) : ∃ y ∈ t, (!isParenthesis y.face) = false := by
  by_contra hn
  push Not at hn
  obtain ⟨a, ha⟩ := ht
  have ht : (faces t).filter isParenthesis = [] := by
    rw [List.filter_eq_nil_iff]
    intro c hc
    obtain ⟨y, hy, rfl⟩ := List.mem_map.1 hc
    simpa using hn y hy
  apply hs.parenthesis
  rw [← ha, faces_append, faces_cons, hx, List.filter_append, List.filter_cons, ht]
  exact List.getLast?_concat

include hs in
theorem call?_append_fromPipe {t : List Cell} (ht : t <:+ mask s) (r : List Cell) :
    call? (t ++ fromPipe r) = (call? t).map (Prod.map id (· ++ fromPipe r)) := by
  simp only [call?, run?_append_fromPipe (p := isNameChar) (by decide), Option.bind_eq_bind]
  rcases h₁ : run? isNameChar t with _ | ⟨name, r₁⟩
  · rfl
  have hr₁ : r₁ <:+ mask s := (leaves_of_append (run?_append h₁)).suffix.trans ht
  simp only [Option.map_some, Option.bind_some, Prod.map_apply, id_eq]
  split
  · rfl
  simp only [skipChar?_append_fromPipe (c := '(') (by decide)]
  cases r₁ with
  | nil => rfl
  | cons x r₂ =>
    by_cases hx : x.face = '('
    · have hp := takeWhile_dropWhile_append (p := (!isParenthesis ·.face)) (u := fromPipe r)
        (Or.inl (exists_parenthesis hs hx hr₁))
      have hsx : skipChar? '(' (x :: r₂) = some r₂ := if_pos hx
      have hr₂ : r₂.dropWhile (!isParenthesis ·.face) <:+ mask s :=
        (List.dropWhile_suffix _).trans ((List.suffix_cons x r₂).trans hr₁)
      simp only [hsx, Option.map_some, Option.bind_some, hp.1, hp.2,
        skipChar?_append_fromPipe (c := ')') (by decide)]
      rcases h₃ : skipChar? ')' (r₂.dropWhile (!isParenthesis ·.face)) with _ | r₃
      · rfl
      · simp only [Option.map_some, Option.bind_some,
          optionalAlias_append_fromPipe hs ((skipChar?_leaves h₃).suffix.trans hr₂)]
        rfl
    · have hsx : skipChar? '(' (x :: r₂) = none := if_neg hx
      rw [hsx]
      rfl

/-- Whether an item ends before a pipe is whether it ends before the end of the text. -/
theorem endsItem_append_fromPipe (t r : List Cell) : endsItem (t ++ fromPipe r) = endsItem t := by
  have hk {k : String} (hk : '|' ∉ k.toList.map Char.toLower) (u : List Cell) :
      startsWithKeywordBy Cell.face k.toList (u ++ fromPipe r) =
        startsWithKeywordBy Cell.face k.toList u := by
    rw [startsWithKeywordBy, startsWithKeywordBy, dropKeyword?_append_fromPipe hk]
    rcases dropKeyword? _ _ u with _ | _ | ⟨x, v⟩ <;> rfl
  rw [endsItem, endsItem, skipBlanks_append_fromPipe]
  cases skipBlanks t with
  | nil => rfl
  | cons x u =>
    have h₁ := hk (k := "from") (by decide) (x :: u)
    have h₂ := hk (k := "by") (by decide) (x :: u)
    rw [List.cons_append] at h₁ h₂
    simp only [List.cons_append, h₁, h₂]

/-! ## Time buckets -/

theorem fraction_append_fromPipe (t r : List Cell) :
    fraction (t ++ fromPipe r) = Prod.map id (· ++ fromPipe r) (fraction t) := by
  simp only [fraction, skipChar?_append_fromPipe (c := '.') (by decide)]
  cases t with
  | nil => rfl
  | cons x t =>
    by_cases hx : x.face = '.'
    · have hsx : skipChar? '.' (x :: t) = some t := if_pos hx
      simp only [hsx, Option.map_some, Option.bind_some,
        run?_append_fromPipe (p := Char.isDigit) (by decide), List.cons_append]
      rcases run? Char.isDigit t with _ | ⟨digits, rest⟩ <;> rfl
    · have hsx : skipChar? '.' (x :: t) = none := if_neg hx
      rw [hsx]
      rfl

theorem amount?_append_fromPipe (t r : List Cell) :
    amount? (t ++ fromPipe r) = (amount? t).map (Prod.map id (· ++ fromPipe r)) := by
  simp only [amount?, run?_append_fromPipe (p := Char.isDigit) (by decide), Option.bind_eq_bind]
  rcases run? Char.isDigit t with _ | ⟨whole, u⟩
  · rfl
  · simp only [Option.map_some, Option.bind_some, Prod.map_apply, id_eq, fraction_append_fromPipe]
    rfl

include hs in
theorem bucketing?_append_fromPipe {t : List Cell} (ht : t <:+ mask s) (r : List Cell) :
    bucketing? (t ++ fromPipe r) = (bucketing? t).map (Prod.map id (· ++ fromPipe r)) := by
  simp only [bucketing?, skipKeyword?_append_fromPipe (k := "span") (by decide),
    Option.bind_eq_bind]
  rcases h₁ : skipKeyword? "span" t with _ | t₁
  · rfl
  have hs₁ : skipBlanks t₁ <:+ mask s :=
    (skipBlanks_suffix t₁).trans ((skipKeyword?_suffix h₁).trans ht)
  simp only [Option.map_some, Option.bind_some, skipBlanks_append_fromPipe,
    skipChar?_append_fromPipe (c := '(') (by decide)]
  rcases h₂ : skipChar? '(' (skipBlanks t₁) with _ | t₂
  · rfl
  have ho₂ : Outside s t₂ := outside_of_skipChar? (by decide) (by decide) hs₁ h₂
  simp only [Option.map_some, Option.bind_some, skipBlanks_append_fromPipe, field?,
    name?_append_fromPipe hs (p := isFieldChar) (by decide) ho₂.skipBlanks]
  rcases h₃ : name? isFieldChar (skipBlanks t₂) with _ | ⟨field, t₃⟩
  · rfl
  have hs₃ : t₃ <:+ mask s :=
    (leaves_of_append (name?_append h₃)).suffix.trans ho₂.skipBlanks.suffix
  simp only [Option.map_some, Option.bind_some, Prod.map_apply, id_eq, skipBlanks_append_fromPipe,
    skipChar?_append_fromPipe (c := ',') (by decide)]
  rcases h₄ : skipChar? ',' (skipBlanks t₃) with _ | t₄
  · rfl
  simp only [Option.map_some, Option.bind_some, skipBlanks_append_fromPipe, amount?_append_fromPipe]
  rcases h₅ : amount? (skipBlanks t₄) with _ | ⟨amount, t₅⟩
  · rfl
  simp only [Option.map_some, Option.bind_some, Prod.map_apply, id_eq, skipBlanks_append_fromPipe,
    run?_append_fromPipe (p := isLetter) (by decide)]
  rcases h₆ : run? isLetter (skipBlanks t₅) with _ | ⟨unit, t₆⟩
  · rfl
  simp only [Option.map_some, Option.bind_some, Prod.map_apply, id_eq, skipBlanks_append_fromPipe,
    skipChar?_append_fromPipe (c := ')') (by decide)]
  rcases h₇ : skipChar? ')' (skipBlanks t₆) with _ | t₇
  · rfl
  have hs₇ : t₇ <:+ mask s := by
    refine (skipChar?_leaves h₇).suffix.trans ((skipBlanks_suffix t₆).trans ?_)
    refine (leaves_of_append (run?_append h₆)).suffix.trans ((skipBlanks_suffix t₅).trans ?_)
    refine (amount?_leaves h₅).suffix.trans ((skipBlanks_suffix t₄).trans ?_)
    exact (skipChar?_leaves h₄).suffix.trans ((skipBlanks_suffix t₃).trans hs₃)
  simp only [Option.map_some, Option.bind_some, optionalAlias_append_fromPipe hs hs₇]
  rfl

/-! ## Lists -/

theorem opensParenthesis_append_fromPipe (t r : List Cell) :
    opensParenthesis (t ++ fromPipe r) = opensParenthesis t := by
  rw [opensParenthesis, opensParenthesis, skipBlanks_append_fromPipe,
    skipChar?_append_fromPipe (by decide), Option.isSome_map]

theorem takeWhile_isGap_append_fromPipe (t r : List Cell) :
    (t ++ fromPipe r).takeWhile Cell.isGap = t.takeWhile Cell.isGap :=
  takeWhile_append_fromPipe (p := fun c => Text.isBlank c || c = ',') (by decide) t r

theorem dropWhile_isGap_append_fromPipe (t r : List Cell) :
    (t ++ fromPipe r).dropWhile Cell.isGap = t.dropWhile Cell.isGap ++ fromPipe r :=
  dropWhile_append_fromPipe (p := fun c => Text.isBlank c || c = ',') (by decide) t r

theorem upTo_append_append (t rest u : List Cell) : upTo (t ++ u) (rest ++ u) = upTo t rest := by
  have hl : (t ++ u).length - (rest ++ u).length = t.length - rest.length := by
    rw [List.length_append, List.length_append]
    omega
  rw [upTo, upTo, hl, List.take_append_of_le_length (Nat.sub_le _ _)]

include hs in
theorem item?_append_fromPipe {t : List Cell} (ht : Outside s t) (r : List Cell) :
    item? (t ++ fromPipe r) = (item? t).map (Prod.map id (· ++ fromPipe r)) := by
  rw [item?, item?, bucketing?_append_fromPipe hs ht.suffix]
  rcases hb : bucketing? t with _ | ⟨b, rest⟩
  · simp only [Option.map_none, field?, name?_append_fromPipe hs (p := isFieldChar) (by decide) ht]
    rcases name? isFieldChar t with _ | ⟨name, rest⟩
    · rfl
    · simp only [Option.map_some, Prod.map_apply, id_eq, opensParenthesis_append_fromPipe]
  · simp only [Option.map_some, Prod.map_apply, id_eq, upTo_append_append]

theorem commaFollows_append_fromPipe (t r : List Cell) :
    commaFollows (t ++ fromPipe r) = commaFollows t := by
  rw [commaFollows, commaFollows, takeWhile_isGap_append_fromPipe]

/-- After a comma the next item starts outside quoted runs. -/
theorem outside_of_commaFollows {s : List Char} {t : List Cell} (ht : t <:+ mask s)
    (h : commaFollows t = true) : Outside s (t.dropWhile Cell.isGap) := by
  obtain ⟨x, hx, hf⟩ := List.any_eq_true.1 h
  rw [decide_eq_true_eq] at hf
  obtain ⟨g₁, g₂, hg⟩ := List.append_of_mem hx
  have hsplit : t = g₁ ++ (x :: g₂ ++ t.dropWhile Cell.isGap) := by
    rw [← List.append_assoc, ← hg, List.takeWhile_append_dropWhile]
  have ho : Outside s (x :: g₂ ++ t.dropWhile Cell.isGap) := by
    refine outside_cons ?_ (by simp [hf]) (by rw [hf]; rfl)
    rw [hsplit] at ht
    exact (List.suffix_append _ _).trans ht
  have hgap : ∀ y ∈ x :: g₂, y.isGap = true := by
    intro y hy
    have hm : y ∈ t.takeWhile Cell.isGap := by
      rw [hg]
      exact List.mem_append_right g₁ hy
    exact List.mem_takeWhile_imp hm
  exact (ho.append fun y hy => isQuote_of_isGap (hgap y hy)).2

include hs in
/-- A list ends before a pipe as it does before the end of the text. -/
theorem listPieces_append_fromPipe {t : List Cell} (ht : Outside s (t.dropWhile Cell.isGap))
    (r : List Cell) :
    listPieces (t ++ fromPipe r) = Prod.map id (· ++ fromPipe r) (listPieces t) := by
  have hi := item?_append_fromPipe hs ht r
  fun_induction listPieces t with
  | case1 t gap h =>
    rw [h, Option.map_none, ← dropWhile_isGap_append_fromPipe] at hi
    rw [listPieces_of_none hi, takeWhile_isGap_append_fromPipe, dropWhile_isGap_append_fromPipe]
    rfl
  | case2 t gap item rest h hc ih =>
    have hrest : rest <:+ mask s := (item?_leaves h).suffix.trans ht.suffix
    have ho := outside_of_commaFollows hrest hc
    rw [h, Option.map_some, ← dropWhile_isGap_append_fromPipe] at hi
    rw [listPieces_of_some hi, takeWhile_isGap_append_fromPipe, commaFollows_append_fromPipe,
      if_pos hc, ih ho (item?_append_fromPipe hs ho r)]
    rfl
  | case3 t gap item rest h hc =>
    rw [h, Option.map_some, ← dropWhile_isGap_append_fromPipe] at hi
    rw [listPieces_of_some hi, takeWhile_isGap_append_fromPipe, commaFollows_append_fromPipe,
      if_neg hc]
    rfl

end QueryStats.Query
