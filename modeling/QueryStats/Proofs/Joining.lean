import QueryStats.Proofs.Passing

/-!
# Signs, white space and keywords

What joins the operands of conditions and of sort orders, and what it does to the operands on its
two sides.  The operand before ends there (`EndsTerm`); and the operand after may be asked for, if
it is a call, behind a sign, but not behind a keyword of conditions (`Keyword.follows`).
-/

namespace QueryStats.Query

open Text

/-! ## What follows an operand -/

theorem isLetter_eq_false_of_isBreak {c : Char} (h : isBreak c = true) : isLetter c = false := by
  rcases hl : isLetter c with _ | _
  · rfl
  · have := (of_isBreak h).1.2.2
    rw [isAliasChar_of_isLetter hl] at this
    cases this

theorem stops_isLetter_of_endsWord {t : List Cell} (h : endsWord t = true) : Stops isLetter t := by
  cases t with
  | nil => exact stops_nil _
  | cons x t =>
    apply stops_cons
    rcases hl : isLetter x.face with _ | _
    · rfl
    · rw [endsWord, isWord_of_isLetter hl] at h
      cases h

/-- Letters before a break are a keyword only if they spell all of it. -/
theorem eq_of_letters {w : List Char} {word t rest : List Cell} (hw : ∀ c ∈ w, isLetter c = true)
    (hword : ∀ x ∈ word, isLetter x.face = true) (ht : Stops isLetter t) (hr : Stops isLetter rest)
    (h : shown w ++ t = word ++ rest) : shown w = word := by
  rw [← takeWhile_append_of_stops (face_of_mem_shown hw) ht, h,
    takeWhile_append_of_stops hword hr]

/-- What follows ends a term if, after white space, no `AS` clause and no `BY` goes on. -/
theorem endsTerm_of_skipBlanks {t v : List Cell} (hb : Breaks t) (hv : skipBlanks t = v)
    (ha : ∀ u, skipKeyword? "as" v = some u → skipSomeBlanks? u = none) (hby : skipBy? v = none) :
    EndsTerm t := by
  have hsome (u : List Cell) (h : skipSomeBlanks? t = some u) : u = v := by
    obtain ⟨gap, ⟨-, hgap⟩, hs, rfl⟩ := skipSomeBlanks?_eq_some_iff.1 h
    rw [← hv]
    exact (dropWhile_append_of_stops hgap hs).symm
  refine ⟨hb, ?_, fun u hu => ?_⟩
  · rcases hal : alias? t with _ | p
    · rfl
    simp only [alias?, Option.bind_eq_bind, Option.bind_eq_some_iff] at hal
    obtain ⟨t₁, h₁, t₂, h₂, t₃, h₃, -⟩ := hal
    rw [hsome t₁ h₁] at h₂
    rw [ha t₂ h₂] at h₃
    cases h₃
  · rw [hsome u hu]
    exact hby

theorem endsTerm_nil : EndsTerm [] :=
  endsTerm_of_skipBlanks (fun _ hx => nomatch hx) rfl (fun _ h => nomatch h) rfl

end QueryStats.Query

namespace QueryStats.Written

open Text Query

/-! ## White space and keywords -/

/-- White space, possibly none. -/
structure Gap where
  text : List Char
  isBlank : ∀ c ∈ text, Text.isBlank c = true

/-- Some white space. -/
structure Space extends Gap where
  ne_nil : text ≠ []

namespace Gap

variable (g : Gap)

theorem isInert {c : Char} (h : c ∈ g.text) : isInert c = true :=
  (of_isBreak (isBreak_of_isBlank (g.isBlank c h))).2

theorem isQuote {c : Char} (h : c ∈ g.text) : isQuote c = false :=
  isQuote_of_isBlank (g.isBlank c h)

theorem balanced : Balanced g.text := balanced_of_unquoted fun _ => g.isQuote

theorem mask_append (w : List Char) : mask (g.text ++ w) = shown g.text ++ mask w :=
  mask_unquoted_append (fun _ => g.isQuote) w

theorem shown_blank : ∀ x ∈ shown g.text, x.isBlank = true :=
  face_of_mem_shown (p := fun c => Text.isBlank c = true) g.isBlank

end Gap

theorem Space.exists_cons (s : Space) : ∃ c w, s.text = c :: w ∧ Text.isBlank c = true := by
  obtain ⟨c, w, h⟩ := List.exists_cons_of_ne_nil s.ne_nil
  exact ⟨c, w, h, s.isBlank c (by rw [h]; exact List.mem_cons_self)⟩

/-- The words that stand between the parts of conditions and of sort orders. -/
inductive Joiner where
  | and | or | not | like | within | is | asc | desc | limit
  deriving DecidableEq, Repr

def Joiner.word : Joiner → String
  | and => "and"
  | or => "or"
  | not => "not"
  | like => "like"
  | within => "in"
  | is => "is"
  | asc => "asc"
  | desc => "desc"
  | limit => "limit"

/-- One of some words, in any case. -/
structure Keyword (js : List Joiner) where
  joiner : Joiner
  mem : joiner ∈ js
  text : List Char
  spells : eqIgnoreCase text joiner.word.toList = true

section

variable {js : List Joiner} (k : Keyword js)

namespace Keyword

theorem toLower_text : k.text.map Char.toLower = k.joiner.word.toList := by
  have hlower (j : Joiner) : j.word.toList.map Char.toLower = j.word.toList := by
    cases j <;> decide
  have := k.spells
  rwa [eqIgnoreCase, beq_iff_eq, hlower] at this

theorem isLower {c : Char} (h : c ∈ k.text) : c.toLower.isLower = true := by
  have hall (j : Joiner) : ∀ c ∈ j.word.toList, c.isLower = true := by cases j <;> decide
  apply hall k.joiner
  rw [← k.toLower_text]
  exact List.mem_map_of_mem h

theorem fold_text : k.text.map fold = k.joiner.word.toList := by
  rw [← k.toLower_text]
  exact List.map_congr_left fun c hc => (of_isLower_toLower (k.isLower hc)).2.2

theorem isLetter {c : Char} (h : c ∈ k.text) : isLetter c = true :=
  (of_isLower_toLower (k.isLower h)).1

theorem isAliasChar {c : Char} (h : c ∈ k.text) : isAliasChar c = true :=
  isAliasChar_of_isLetter (k.isLetter h)

theorem isQuote {c : Char} (h : c ∈ k.text) : isQuote c = false :=
  isQuote_of_isAliasChar (k.isAliasChar h)

theorem isInert {c : Char} (h : c ∈ k.text) : isInert c = true :=
  isInert_of_isAliasChar (k.isAliasChar h)

theorem balanced : Balanced k.text := balanced_of_unquoted fun _ => k.isQuote

theorem ne_nil : k.text ≠ [] := by
  intro h
  have hne (j : Joiner) : j.word.toList ≠ [] := by cases j <;> decide
  apply hne k.joiner
  rw [← k.toLower_text, h]
  rfl

theorem mask_append (w : List Char) : mask (k.text ++ w) = shown k.text ++ mask w :=
  mask_unquoted_append (fun _ => k.isQuote) w

/-- The text of a keyword is no other word, when a break follows. -/
theorem skipKeyword?_eq_none {keyword : String} (hk : ∀ c ∈ keyword.toList, c.isLower = true)
    (hne : k.joiner.word ≠ keyword) {t rest : List Cell} (ht : Breaks t)
    (hr : Stops Text.isLetter rest) : skipKeyword? keyword (shown k.text ++ t) ≠ some rest := by
  intro h
  obtain ⟨word, hword, hsplit⟩ := skipKeyword?_eq_some_iff.1 h
  have hletter : ∀ x ∈ word, Text.isLetter x.face = true := by
    intro x hx
    apply hk
    rw [← hword]
    exact List.mem_map_of_mem (f := fun x : Cell => fold x.face) hx
  have heq := eq_of_letters (fun _ => k.isLetter) hletter
    (ht.stops fun _ => isLetter_eq_false_of_isBreak) hr hsplit
  apply hne
  rw [← String.toList_inj, ← k.fold_text, ← hword, ← heq, shown, List.map_map]
  rfl

theorem skipSomeBlanks?_eq_none {keyword : String}
    (hk : ∀ c ∈ keyword.toList, c.isLower = true) (hne : k.joiner.word ≠ keyword)
    {t rest : List Cell} (ht : Breaks t)
    (h : skipKeyword? keyword (shown k.text ++ t) = some rest) :
    skipSomeBlanks? rest = none := by
  rcases hs : skipSomeBlanks? rest with _ | v
  · rfl
  obtain ⟨gap, ⟨hgap, hblank⟩, -, rfl⟩ := skipSomeBlanks?_eq_some_iff.1 hs
  obtain ⟨x, gap, rfl⟩ := List.exists_cons_of_ne_nil hgap
  have hx := isLetter_eq_false_of_isBreak (isBreak_of_isBlank (hblank x List.mem_cons_self))
  exact absurd h (k.skipKeyword?_eq_none hk hne ht (stops_cons hx _))

theorem skipBy?_eq_none {t : List Cell} (ht : Breaks t) : skipBy? (shown k.text ++ t) = none := by
  have hne (j : Joiner) : j.word ≠ "by" := by cases j <;> decide
  rcases hby : skipBy? (shown k.text ++ t) with _ | rest
  · rfl
  obtain ⟨hk, he⟩ := skipBy?_eq_some_iff.1 hby
  exact absurd hk
    (k.skipKeyword?_eq_none (by decide) (hne _) ht (stops_isLetter_of_endsWord he))

theorem startsWithKeywordBy_eq_false {keyword : List Char}
    (hk : ∀ c ∈ keyword.map Char.toLower, c.isLower = true)
    (hne : k.joiner.word.toList ≠ keyword.map Char.toLower) {t : List Cell} (ht : Breaks t) :
    startsWithKeywordBy Cell.face keyword (shown k.text ++ t) = false := by
  have hno {word rest : List Cell} (hw : word.map (·.face.toLower) = keyword.map Char.toLower)
      (hr : Stops Text.isLetter rest) : shown k.text ++ t ≠ word ++ rest := by
    intro h
    have hletter : ∀ x ∈ word, Text.isLetter x.face = true := by
      intro x hx
      refine (of_isLower_toLower (hk _ ?_)).1
      rw [← hw]
      exact List.mem_map_of_mem (f := fun x : Cell => x.face.toLower) hx
    have heq := eq_of_letters (fun _ => k.isLetter) hletter
      (ht.stops fun _ => isLetter_eq_false_of_isBreak) hr h
    apply hne
    rw [← k.toLower_text, ← hw, ← heq, shown, List.map_map]
    rfl
  rw [startsWithKeywordBy]
  rcases hd : dropKeyword? (fun x : Cell => x.face.toLower) (keyword.map Char.toLower)
    (shown k.text ++ t) with _ | rest
  · rfl
  obtain ⟨word, hsplit, hw⟩ := dropKeyword?_append hd
  cases rest with
  | nil => exact absurd hsplit (hno hw (stops_nil _))
  | cons x rest =>
    rcases hx : isNamePart x.face with _ | _
    · have hl : Text.isLetter x.face = false := by
        rw [← Bool.not_eq_true]
        intro hl
        rw [isNamePart_of_isLetter hl] at hx
        cases hx
      exact absurd hsplit (hno hw (stops_cons hl rest))
    · simp [hx]

end Keyword

variable (s : Space)

theorem Space.skipBlanks_append (w : List Char) {t : List Cell} :
    skipBlanks (mask (s.text ++ (k.text ++ w)) ++ t) = shown k.text ++ (mask w ++ t) := by
  have hstops : Stops Text.isBlank (shown k.text ++ (mask w ++ t)) :=
    stops_shown k.ne_nil (fun c hc => isBlank_of_isAliasChar (k.isAliasChar hc)) _
  rw [s.mask_append, k.mask_append, List.append_assoc, List.append_assoc]
  exact dropWhile_append_of_stops s.shown_blank hstops

theorem Space.breaks (w : List Char) (t : List Cell) : Breaks (mask (s.text ++ w) ++ t) := by
  obtain ⟨c, u, hu, hblank⟩ := s.exists_cons
  rw [s.mask_append, hu]
  exact breaks_of_isBlank (x := .plain c) hblank _

/-- A term ends before white space and a keyword. -/
theorem Space.endsTerm {w : List Char} {t : List Cell} (hb : Breaks (mask w ++ t)) :
    EndsTerm (mask (s.text ++ (k.text ++ w)) ++ t) := by
  have hne (j : Joiner) : j.word ≠ "as" := by cases j <;> decide
  apply endsTerm_of_skipBlanks ?_ (s.skipBlanks_append k w)
  · exact fun u hu => k.skipSomeBlanks?_eq_none (by decide) (hne _) hb hu
  · exact k.skipBy?_eq_none hb
  · exact s.breaks _ t

/-- No item of a list of aggregations ends before a keyword. -/
theorem Space.endsItem {w : List Char} {t : List Cell} (hb : Breaks (mask w ++ t)) :
    endsItem (mask (s.text ++ (k.text ++ w)) ++ t) = false := by
  have hne (j : Joiner) : j.word.toList ≠ "from".toList.map Char.toLower ∧
      j.word.toList ≠ "by".toList.map Char.toLower := by cases j <;> decide
  have hfrom := k.startsWithKeywordBy_eq_false (by decide) (hne k.joiner).1 hb
  have hby := k.startsWithKeywordBy_eq_false (by decide) (hne k.joiner).2 hb
  have hs := s.skipBlanks_append k w (t := t)
  obtain ⟨c, u, hu⟩ := List.exists_cons_of_ne_nil k.ne_nil
  have hc := k.isAliasChar (c := c) (by rw [hu]; exact List.mem_cons_self)
  have hsign : c ≠ ',' ∧ c ≠ '|' ∧ c ≠ ';' := by
    refine ⟨?_, ?_, ?_⟩ <;>
      · rintro rfl
        cases hc
  simp only [hu, shown_cons, List.cons_append] at hfrom hby hs
  simp only [Query.endsItem, hu, List.cons_append, hs, face_plain, hfrom, hby, hsign, decide_false,
    Bool.or_false]

end

/-! ## Signs -/

/-- Whether a character is a sign that stands between operands. -/
def isSign (c : Char) : Bool := "=<>!),".toList.contains c

theorem of_isSign {c : Char} (h : isSign c = true) :
    isBreak c = true ∧ c ≠ '(' ∧ Text.isBlank c = false ∧ isQuote c = false ∧
      isNameStart c = false := by
  have hall : ∀ c ∈ "=<>!),".toList, isBreak c = true ∧ c ≠ '(' ∧ Text.isBlank c = false ∧
      isQuote c = false ∧ isNameStart c = false := by decide +kernel
  exact hall c (List.contains_iff_mem.1 h)

theorem Gap.skipBlanks_append (g : Gap) {c : Char} (hc : isSign c = true) (w : List Char)
    (t : List Cell) : skipBlanks (mask (g.text ++ c :: w) ++ t) = .plain c :: (mask w ++ t) := by
  obtain ⟨-, -, hblank, hquote, -⟩ := of_isSign hc
  rw [g.mask_append, mask_cons hquote, List.append_assoc]
  exact dropWhile_append_of_stops g.shown_blank (stops_cons (x := .plain c) hblank _)

theorem Gap.endsTerm (g : Gap) {c : Char} (hc : isSign c = true) (w : List Char) (t : List Cell) :
    EndsTerm (mask (g.text ++ c :: w) ++ t) := by
  obtain ⟨hbreak, hne, -, hquote, hstart⟩ := of_isSign hc
  have hl : Text.isLetter c = false := (Bool.or_eq_false_iff.1 hstart).1
  apply endsTerm_of_skipBlanks ?_ (g.skipBlanks_append hc w t)
  · intro u hu
    rw [skipKeyword?_of_not_letter (x := .plain c) hl rfl rfl] at hu
    cases hu
  · rw [skipBy?, skipKeyword?_of_not_letter (x := .plain c) hl rfl rfl]
    rfl
  · rw [g.mask_append, mask_cons hquote]
    cases hg : g.text with
    | nil => exact breaks_cons (x := .plain c) hbreak hne _
    | cons d u =>
      exact breaks_of_isBlank (x := .plain d)
        (g.isBlank d (by rw [hg]; exact List.mem_cons_self)) _

theorem Gap.endsItem_comma (g : Gap) (w : List Char) (t : List Cell) :
    endsItem (mask (g.text ++ ',' :: w) ++ t) = true := by
  rw [endsItem, g.skipBlanks_append (by decide)]
  rfl

/-- No item of a list of aggregations ends before a sign that is no comma. -/
theorem Gap.endsItem_sign (g : Gap) {c : Char} (hc : isSign c = true) (hne : c ≠ ',')
    (w : List Char) (t : List Cell) : endsItem (mask (g.text ++ c :: w) ++ t) = false := by
  have hall : ∀ c ∈ "=<>!),".toList, c ≠ '|' ∧ c ≠ ';' ∧ c.toLower ≠ 'f' ∧ c.toLower ≠ 'b' := by
    decide
  obtain ⟨h₁, h₂, h₃, h₄⟩ := hall c (List.contains_iff_mem.1 hc)
  rw [endsItem, g.skipBlanks_append hc]
  simp [startsWithKeywordBy, dropKeyword?, hne, h₁, h₂, h₃, h₄]

/-! ## What is before an operand -/

/-- Whether a text is empty or ends with a break.  The text is given backwards. -/
def Fresh (seen : List Char) : Prop := ∀ c ∈ seen.head?, isBreak c = true

theorem Fresh.startsWord {seen : List Char} (h : Fresh seen) : startsWord seen = true := by
  cases seen with
  | nil => rfl
  | cons c seen => rw [Query.startsWord, (of_isBreak (h c rfl)).1.1]; rfl

theorem fresh_cons {c : Char} (h : isBreak c = true) (seen : List Char) : Fresh (c :: seen) :=
  fun _ hd => Option.some.inj hd ▸ h

theorem fresh_past {w seen : List Char} (hw : ∀ c ∈ w, isBreak c = true)
    (hs : w = [] → Fresh seen) : Fresh (past seen w) := by
  rw [past_of_unquoted fun c hc => isQuote_of_isInert (of_isBreak (hw c hc)).2]
  intro c hc
  rcases List.eq_nil_or_concat w with rfl | ⟨v, d, rfl⟩
  · exact hs rfl c hc
  · rw [List.concat_eq_append, List.reverse_concat, List.cons_append] at hc
    obtain rfl : d = c := Option.some.inj hc
    exact hw d (by simp)

theorem Gap.fresh (g : Gap) {seen : List Char} (h : Fresh seen) : Fresh (past seen g.text) :=
  fresh_past (fun c hc => isBreak_of_isBlank (g.isBlank c hc)) fun _ => h

theorem Space.fresh (s : Space) (seen : List Char) : Fresh (past seen s.text) :=
  fresh_past (fun c hc => isBreak_of_isBlank (s.isBlank c hc)) fun h => absurd h s.ne_nil

theorem Gap.wordBefore_past (g : Gap) {seen : List Char}
    (h : ∀ c ∈ seen.head?, Text.isBlank c = false) :
    wordBefore (past seen g.text) = (seen.takeWhile isNamePart).reverse := by
  have hd : (g.text.reverse ++ seen).dropWhile Text.isBlank = seen := by
    rw [List.dropWhile_append_of_pos fun c hc => g.isBlank c (List.mem_reverse.1 hc)]
    cases seen with
    | nil => rfl
    | cons c seen => rw [List.dropWhile_cons, h c rfl, if_neg Bool.false_ne_true]
  rw [past_of_unquoted fun _ => g.isQuote, wordBefore, hd]

/-- A call behind a keyword of conditions is an operand. -/
theorem Keyword.follows {js : List Joiner} (k : Keyword js)
    (hj : ∀ j ∈ js, j.word ∈ conditionWords) (g : Gap) {seen : List Char} (hs : Fresh seen) :
    follows conditionWords (past (past seen k.text) g.text) = true := by
  rw [past_of_unquoted (fun _ => k.isQuote) seen]
  have hhead : ∀ c ∈ (k.text.reverse ++ seen).head?, Text.isBlank c = false := by
    intro c hc
    obtain ⟨d, v, hv⟩ := List.exists_cons_of_ne_nil (List.reverse_ne_nil_iff.2 k.ne_nil)
    rw [hv, List.cons_append] at hc
    obtain rfl : d = c := Option.some.inj hc
    refine isBlank_of_isAliasChar (k.isAliasChar ?_)
    rw [← List.mem_reverse, hv]
    exact List.mem_cons_self
  have hword : wordBefore (past (k.text.reverse ++ seen) g.text) = k.text := by
    have hname : ∀ c ∈ k.text.reverse, isNamePart c = true := fun c hc =>
      (of_isLower_toLower (k.isLower (List.mem_reverse.1 hc))).2.1
    have hstop : ∀ c ∈ seen.head?, isNamePart c = false := fun c hc => (of_isBreak (hs c hc)).1.2.1
    rw [g.wordBefore_past hhead, (takeWhile_dropWhile_append (Or.inr hstop)).1,
      List.takeWhile_eq_self_iff.2 hname, List.reverse_reverse]
  unfold Query.follows
  rw [List.any_eq_true, hword]
  exact ⟨k.joiner.word, hj k.joiner k.mem, k.spells⟩

/-- A call behind a sign may be asked for. -/
theorem Gap.not_follows (g : Gap) {c : Char} (hc : isSign c = true) (seen : List Char) :
    Query.follows conditionWords (past (c :: seen) g.text) = false := by
  obtain ⟨hbreak, -, hblank, -⟩ := of_isSign hc
  have hhead : ∀ d ∈ (c :: seen).head?, Text.isBlank d = false := fun d hd =>
    Option.some.inj hd ▸ hblank
  unfold Query.follows
  rw [g.wordBefore_past hhead, List.takeWhile_cons, (of_isBreak hbreak).1.2.1,
    if_neg Bool.false_ne_true]
  rfl

/-! ## What is passed over -/

theorem Gap.asks (g : Gap) (seen : List Char) (t : List Cell) : Asks seen g.text t [] := by
  apply asks_unquoted_dull
  intro c hc
  have hbreak := of_isBreak (isBreak_of_isBlank (g.isBlank c hc))
  exact ⟨isNameStart_eq_false hbreak.1.2.2, g.isQuote hc⟩

/-- The scan passes over a keyword: it is none of the words that count, and no word begins inside
it. -/
theorem Keyword.asks {js : List Joiner} (k : Keyword js) {seen : List Char} {t : List Cell}
    (ht : Breaks t) : Asks seen k.text t [] := by
  have hne (j : Joiner) : j.word ≠ "group" := by cases j <;> decide
  have hparen : '(' ∉ k.text := fun h => absurd (k.isAliasChar h) (by decide)
  have hgroup : skipGroupBy? (shown k.text ++ t) = none := by
    rcases hg : skipGroupBy? (shown k.text ++ t) with _ | rest
    · rfl
    simp only [skipGroupBy?, Option.bind_eq_bind, Option.bind_eq_some_iff] at hg
    obtain ⟨t₁, h₁, t₂, h₂, -⟩ := hg
    rw [k.skipSomeBlanks?_eq_none (by decide) (hne _) ht h₁] at h₂
    cases h₂
  have hquiet : Quiet seen (shown k.text ++ t) :=
    ⟨call?_bare hparen ht, hgroup, fun rest h => by rw [k.skipBy?_eq_none ht] at h; cases h⟩
  obtain ⟨c, w, hw⟩ := List.exists_cons_of_ne_nil k.ne_nil
  apply asks_of_eq
  intro _
  rw [mask_of_unquoted fun _ => k.isQuote, past_of_unquoted fun _ => k.isQuote]
  rw [hw] at hquiet ⊢
  apply clauseFrom_word _ fun _ => hquiet
  exact fun d hd => isWord_of_isLetter (k.isLetter (by rw [hw]; exact hd))

end QueryStats.Written
