import QueryStats.Clause.OfQuery
import QueryStats.Proofs.Characters
import QueryStats.Proofs.Trimming
import QueryStats.Proofs.Written

/-!
# Recognising what was written

Each recogniser reads what was written and leaves what follows, whenever what follows cannot be
taken for more of it.  A run of characters must stop (`Stops`), and no `AS` clause may go on after a
call or a time bucket (`EndsAlias`).
-/

namespace QueryStats.Query

open Text

/-! ## Runs -/

/-- Whether a text does not go on with a character that passes a test. -/
def Stops (p : Char → Bool) (t : List Cell) : Prop := ∀ x ∈ t.head?, p x.face = false

theorem stops_nil (p : Char → Bool) : Stops p [] := fun _ h => nomatch h

theorem stops_cons {p : Char → Bool} {x : Cell} (h : p x.face = false) (t : List Cell) :
    Stops p (x :: t) := fun _ hy => Option.some.inj hy ▸ h

theorem takeWhile_of_stops {p : Char → Bool} {t : List Cell} (h : Stops p t) :
    t.takeWhile (p ·.face) = [] := by
  cases t with
  | nil => rfl
  | cons x t => rw [List.takeWhile_cons, h x rfl, if_neg Bool.false_ne_true]

theorem dropWhile_of_stops {p : Char → Bool} {t : List Cell} (h : Stops p t) :
    t.dropWhile (p ·.face) = t := by
  cases t with
  | nil => rfl
  | cons x t => rw [List.dropWhile_cons, h x rfl, if_neg Bool.false_ne_true]

theorem skipBlanks_of_stops {t : List Cell} (h : Stops isBlank t) : skipBlanks t = t :=
  dropWhile_of_stops h

section

variable {p : Char → Bool} {s t : List Cell}

theorem takeWhile_append_of_stops (hs : ∀ x ∈ s, p x.face = true) (ht : Stops p t) :
    (s ++ t).takeWhile (p ·.face) = s := by
  rw [List.takeWhile_append_of_pos hs, takeWhile_of_stops ht, List.append_nil]

theorem dropWhile_append_of_stops (hs : ∀ x ∈ s, p x.face = true) (ht : Stops p t) :
    (s ++ t).dropWhile (p ·.face) = t := by
  rw [List.dropWhile_append_of_pos hs, dropWhile_of_stops ht]

theorem run?_append_of_stops (hne : s ≠ []) (hs : ∀ x ∈ s, p x.face = true) (ht : Stops p t) :
    run? p (s ++ t) = some (s, t) := by
  rw [run?, takeWhile_append_of_stops hs ht, dropWhile_append_of_stops hs ht]
  cases s with
  | nil => exact absurd rfl hne
  | cons x s => rfl

end

/-- What a run is cut to does not depend on what follows an element that ends it. -/
theorem takeWhile_dropWhile_append {α : Type} {p : α → Bool} {t u : List α}
    (h : (∃ x ∈ t, p x = false) ∨ ∀ x ∈ u.head?, p x = false) :
    (t ++ u).takeWhile p = t.takeWhile p ∧ (t ++ u).dropWhile p = t.dropWhile p ++ u := by
  induction t with
  | nil =>
    cases u with
    | nil => exact ⟨rfl, rfl⟩
    | cons y u =>
      have hy : p y = false := h.elim (fun ⟨x, hx, _⟩ => nomatch hx) fun h => h y rfl
      simp [hy]
  | cons x t ih =>
    by_cases hx : p x = true
    · have ht : (∃ y ∈ t, p y = false) ∨ ∀ y ∈ u.head?, p y = false := by
        refine h.imp_left fun ⟨y, hy, hf⟩ => ?_
        rcases List.mem_cons.1 hy with rfl | hy
        · rw [hx] at hf
          cases hf
        · exact ⟨y, hy, hf⟩
      simp only [List.cons_append, List.takeWhile_cons, List.dropWhile_cons, hx, if_true, ih ht,
        and_self]
    · simp only [List.cons_append, List.takeWhile_cons, List.dropWhile_cons, hx, if_false,
        Bool.false_eq_true, and_self]

theorem face_of_mem_shown {p : Char → Prop} {w : List Char} (h : ∀ c ∈ w, p c) :
    ∀ x ∈ shown w, p x.face := by
  intro x hx
  obtain ⟨c, hc, rfl⟩ := List.mem_map.1 hx
  exact h c hc

theorem run?_shown {p : Char → Bool} {w : List Char} {t : List Cell} (hne : w ≠ [])
    (hw : ∀ c ∈ w, p c = true) (ht : Stops p t) : run? p (shown w ++ t) = some (shown w, t) :=
  run?_append_of_stops (by simpa [shown] using hne) (face_of_mem_shown hw) ht

/-! ## Names -/

theorem quoted?_mask {q : Char} (hq : isQuote q = true) {body : List Char} (h : q ∉ body)
    (t : List Cell) :
    quoted? q (mask (q :: (body ++ [q])) ++ t) = some (mask (q :: (body ++ [q])), t) := by
  have hb : ∀ x ∈ maskFrom (some q) body, (x.face != q) = true := by
    intro x hx
    rw [face_of_mem_maskFrom_some h hx, bne_iff_ne]
    rintro rfl
    exact absurd hq (by decide)
  have ht : Stops (· != q) (.plain q :: t) := stops_cons (by simp) t
  rw [mask_quoted hq h, List.cons_append, List.append_assoc, List.singleton_append, quoted?,
    face_plain, if_pos rfl, dropWhile_append_of_stops (p := (· != q)) hb ht,
    takeWhile_append_of_stops (p := (· != q)) hb ht]
  rfl

theorem quoted?_of_face_ne {q : Char} {x : Cell} (h : x.face ≠ q) (t : List Cell) :
    quoted? q (x :: t) = none := by
  rw [quoted?, if_neg h]

/-! ## What follows -/

/-- Whether what follows a name or a closing parenthesis goes on with no alias. -/
structure EndsAlias (t : List Cell) : Prop where
  alias? : alias? t = none
  stops : Stops isAliasChar t

theorem endsAlias_nil : EndsAlias [] := ⟨rfl, stops_nil _⟩

end QueryStats.Query

namespace QueryStats.Written

open Text Query

variable {isBare : Char → Bool}

theorem isQuote_of_eq {q : Char} (h : q = backQuote ∨ q = doubleQuote) : isQuote q = true := by
  rcases h with rfl | rfl <;> decide

/-- A name is written as a run of bare characters, or between two quotes of one kind. -/
theorem Name.text_cases (n : Name isBare) :
    (n.spelling = .bare ∧ n.text = n.name ∧ n.name ≠ [] ∧
      (∀ c ∈ n.name, isBare c = true ∧ isQuote c = false) ∧ CommentFree n.name) ∨
    ∃ q, (q = backQuote ∨ q = doubleQuote) ∧ q ∉ n.name ∧ n.text = q :: (n.name ++ [q]) := by
  obtain ⟨name, spelling, trimmed, fits⟩ := n
  cases spelling with
  | bare => exact Or.inl ⟨rfl, rfl, fits⟩
  | backQuoted => exact Or.inr ⟨backQuote, Or.inl rfl, fits, rfl⟩
  | doubleQuoted => exact Or.inr ⟨doubleQuote, Or.inr rfl, fits, rfl⟩

/-- A name as it stands in a text: a run of bare characters without a quote and without the sign of
a comment, or what stands between two quotes of one kind, the quotes included. -/
def IsToken (isBare : Char → Bool) (text : List Char) : Prop :=
  (text ≠ [] ∧ (∀ c ∈ text, isBare c = true ∧ isQuote c = false) ∧ CommentFree text) ∨
    ∃ q body, (q = backQuote ∨ q = doubleQuote) ∧ q ∉ body ∧ text = q :: (body ++ [q])

theorem Name.isToken (n : Name isBare) : IsToken isBare n.text := by
  rcases n.text_cases with ⟨-, ht, hn⟩ | ⟨q, hq, hnot, ht⟩
  · rw [ht]
    exact Or.inl hn
  · exact Or.inr ⟨q, n.name, hq, hnot, ht⟩

theorem IsToken.balanced {text : List Char} (h : IsToken isBare text) : Balanced text := by
  rcases h with ⟨-, hn, -⟩ | ⟨q, body, hq, hnot, rfl⟩
  · exact balanced_of_unquoted fun c hc => (hn c hc).2
  · exact balanced_quoted (isQuote_of_eq hq) hnot

theorem IsToken.commentFree {text : List Char} (h : IsToken isBare text) : CommentFree text := by
  rcases h with ⟨-, -, hfree⟩ | ⟨q, body, hq, hnot, rfl⟩
  · exact hfree
  · exact commentFree_quoted (isQuote_of_eq hq) hnot

/-- A name is read to its end when no bare character follows. -/
theorem IsToken.name? {text : List Char} (h : IsToken isBare text) {t : List Cell}
    (ht : Stops isBare t) : name? isBare (mask text ++ t) = some (mask text, t) := by
  rcases h with ⟨hne, hbare, -⟩ | ⟨q, body, rfl | rfl, hnot, rfl⟩
  · obtain ⟨c, u, rfl⟩ := List.exists_cons_of_ne_nil hne
    have hq : ∀ q, isQuote q = true → quoted? q (shown (c :: u) ++ t) = none := by
      intro q hq
      rw [shown_cons, List.cons_append, quoted?_of_face_ne]
      rintro rfl
      exact absurd hq (by simp [(hbare c List.mem_cons_self).2])
    rw [mask_of_unquoted fun c hc => (hbare c hc).2, Query.name?, hq _ (by decide),
      hq _ (by decide), run?_shown hne (fun c hc => (hbare c hc).1) ht]
    rfl
  · rw [Query.name?, quoted?_mask (by decide) hnot]
    rfl
  · rw [Query.name?, quoted?_mask (by decide) hnot]
    rfl

theorem Name.balanced_text (n : Name isBare) : Balanced n.text := n.isToken.balanced

/-- A written name starts with its quote or with one of its characters, which is no white space. -/
theorem Name.head_text (n : Name isBare) :
    ∃ c t, n.text = c :: t ∧ isBlank c = false ∧ (isBare c = true ∨ isQuote c = true) := by
  rcases n.text_cases with ⟨-, ht, hne, hn, -⟩ | ⟨q, hq, -, ht⟩
  · obtain ⟨c, u, hu⟩ := List.exists_cons_of_ne_nil hne
    have hc : c ∈ n.name := by
      rw [hu]
      exact List.mem_cons_self
    have hb : isBlank c = false := by
      apply head_trim n.name c
      rw [n.trimmed, hu]
      rfl
    exact ⟨c, u, by rw [ht, hu], hb, Or.inl (hn c hc).1⟩
  · have hq := isQuote_of_eq hq
    exact ⟨q, n.name ++ [q], ht, isBlank_quote hq, Or.inr hq⟩

theorem Name.stops_blank (n : Name isBare) (t : List Cell) : Stops isBlank (mask n.text ++ t) := by
  obtain ⟨c, u, hu, hc, -⟩ := n.head_text
  rw [hu]
  exact stops_cons (x := .plain c) hc _

theorem Name.name?_text (n : Name isBare) {t : List Cell} (ht : Stops isBare t) :
    name? isBare (mask n.text ++ t) = some (mask n.text, t) := n.isToken.name? ht

/-! ## Aliases -/

/-- The cells of a label. -/
def labelCells (label : Option Alias) : Option (List Cell) := label.map fun n => mask n.text

theorem mask_asClause_some (n : Alias) :
    mask (asClause (some n)) = shown " AS ".toList ++ mask n.text :=
  mask_unquoted_append (by decide) n.text

theorem balanced_asClause (label : Option Alias) : Balanced (asClause label) := by
  cases label with
  | none => rfl
  | some n => exact (balanced_of_unquoted (by decide)).append n.balanced_text

theorem alias?_asClause (n : Alias) {t : List Cell} (ht : Stops isAliasChar t) :
    alias? (mask (asClause (some n)) ++ t) = some (mask n.text, t) := by
  have hb := skipBlanks_of_stops (n.stops_blank t)
  have hn := n.name?_text ht
  rw [mask_asClause_some, List.append_assoc]
  generalize mask n.text ++ t = u at hb hn
  have hu : alias? (shown " AS ".toList ++ u) = name? isAliasChar (skipBlanks u) := rfl
  rw [hu, hb, hn]

theorem optionalAlias_asClause (label : Option Alias) {t : List Cell} (ht : EndsAlias t) :
    optionalAlias (mask (asClause label) ++ t) = (labelCells label, t) := by
  cases label with
  | none =>
    rw [optionalAlias, show mask (asClause none) ++ t = t from rfl, ht.alias?]
    rfl
  | some n =>
    rw [optionalAlias, alias?_asClause n ht.stops]
    rfl

theorem unquoteChars_text (n : Alias) : unquoteChars n.text = n.name := by
  rcases n.text_cases with ⟨-, ht, -, hn, -⟩ | ⟨q, rfl | rfl, -, ht⟩
  · rw [ht, unquoteChars_unquoted fun c hc => (hn c hc).2, n.trimmed]
  · rw [ht, unquoteChars_backQuoted, n.trimmed]
  · rw [ht, unquoteChars_doubleQuoted, n.trimmed]

theorem labelName_labelCells (label : Option Alias) :
    labelName (labelCells label) = labelOf label := by
  cases label with
  | none => rfl
  | some n =>
    rw [labelCells, Option.map_some, labelName, Option.map_some, sources_mask, unquoteChars_text]
    rfl

/-! ## Calls -/

/-- The call that a reader finds in the text of an aggregation. -/
def Call.call (c : Call) : Query.Call where
  name := shown c.name
  argument := mask c.argument
  label := labelCells c.label

theorem Call.name_ne_nil (c : Call) : c.name ≠ [] := by
  intro h
  have := c.start
  rw [h] at this
  cases this

theorem Call.unquoted_name (c : Call) : ∀ d ∈ c.name, isQuote d = false := fun d hd =>
  isQuote_of_isAliasChar (isAliasChar_of_isNameChar (c.isName d hd))

theorem Call.mask_text (c : Call) :
    mask c.text = shown c.name ++ .plain '(' :: (mask c.argument ++ .plain ')' ::
      mask (asClause c.label)) := by
  rw [Call.text, mask_unquoted_append c.unquoted_name, mask_cons (by decide),
    mask_append c.balanced, mask_cons (by decide)]

theorem Call.balanced_text (c : Call) : Balanced c.text := by
  have h : Balanced (')' :: asClause c.label) := balanced_asClause c.label
  exact (balanced_of_unquoted c.unquoted_name).append (c.balanced.append h : Balanced ('(' :: _))

/-- A written call is read as such. -/
theorem Call.call?_text (c : Call) {t : List Cell} (ht : EndsAlias t) :
    call? (mask c.text ++ t) = some (c.call, t) := by
  have hn : run? isNameChar (shown c.name ++ .plain '(' :: (mask c.argument ++ .plain ')' ::
      (mask (asClause c.label) ++ t))) = some (shown c.name, .plain '(' :: (mask c.argument ++
      .plain ')' :: (mask (asClause c.label) ++ t))) :=
    run?_shown c.name_ne_nil c.isName (stops_cons (by decide) _)
  have hs : (shown c.name).head?.any (isNameStart ·.face) = true := by
    have := c.start
    cases hc : c.name with
    | nil => rw [hc] at this; exact this
    | cons d u => rw [hc] at this; exact this
  have ha : ∀ x ∈ mask c.argument, (!isParenthesis x.face) = true := by
    intro x hx
    rw [c.noParenthesis x.face (List.mem_map_of_mem hx)]
    rfl
  have hp : Stops (!isParenthesis ·) (.plain ')' :: (mask (asClause c.label) ++ t)) :=
    stops_cons (by decide) _
  rw [c.mask_text, List.append_assoc, List.cons_append, List.append_assoc, List.cons_append]
  simp only [call?, hn, hs, Option.bind_eq_bind, Option.bind_some, Bool.not_true,
    Bool.false_eq_true, if_false, skipChar?, face_plain, if_true,
    takeWhile_append_of_stops (p := (!isParenthesis ·)) ha hp,
    dropWhile_append_of_stops (p := (!isParenthesis ·)) ha hp, optionalAlias_asClause c.label ht]
  rfl

/-- The call stands for the aggregation. -/
theorem Call.aggregation_call (c : Call) : c.call.aggregation = c.aggregation := by
  rw [Query.Call.aggregation, Call.call, sourceText, sources_shown, sources_mask, c.trimmed,
    labelName_labelCells]
  rfl

/-! ## Time buckets -/

theorem IsAmount.isAliasChar {t : List Char} (h : IsAmount t) : ∀ c ∈ t, isAliasChar c = true := by
  rcases h with h | ⟨whole, part, hw, hp, rfl⟩
  · exact fun c hc => isAliasChar_of_isDigit (h.2 c hc)
  · intro c hc
    rcases List.mem_append.1 hc with hc | hc
    · exact isAliasChar_of_isDigit (hw.2 c hc)
    · rcases List.mem_cons.1 hc with rfl | hc
      · rfl
      · exact isAliasChar_of_isDigit (hp.2 c hc)

/-- An amount is read to its end when no digit and no point follows. -/
theorem amount?_append {a u : List Cell} (h : IsAmount (faces a)) (hd : Stops Char.isDigit u)
    (hp : skipChar? '.' u = none) : amount? (a ++ u) = some (a, u) := by
  have hrun {a t : List Cell} (h : IsDigits (faces a)) (ht : Stops Char.isDigit t) :
      run? Char.isDigit (a ++ t) = some (a, t) :=
    run?_append_of_stops (fun ha => h.1 (by rw [ha]; rfl))
      (fun x hx => h.2 x.face (List.mem_map_of_mem hx)) ht
  rcases h with h | ⟨whole, part, hw, hpart, ha⟩
  · simp only [amount?, hrun h hd, Option.bind_eq_bind, Option.bind_some, fraction, hp,
      Option.bind_none]
    rw [List.append_nil]
    rfl
  · obtain ⟨w, v, rfl, rfl, hv⟩ := List.map_eq_append_iff.1 ha
    obtain ⟨x, p, rfl, hx, rfl⟩ := List.map_eq_cons_iff.1 hv
    have h₁ : run? Char.isDigit (w ++ (x :: (p ++ u))) = some (w, x :: (p ++ u)) :=
      hrun hw (stops_cons (by rw [hx]; decide) _)
    rw [List.append_assoc, List.cons_append]
    simp only [amount?, h₁, Option.bind_eq_bind, Option.bind_some, fraction, skipChar?, hx,
      if_true, hrun hpart hd]
    rfl

theorem amount?_shown {t : List Char} (h : IsAmount t) {u : List Cell} (hd : Stops Char.isDigit u)
    (hp : skipChar? '.' u = none) : amount? (shown t ++ u) = some (shown t, u) :=
  amount?_append (by rwa [faces_shown]) hd hp

/-- The time bucket that a reader finds in its text. -/
def Bucket.bucketing (b : Bucket) : Bucketing where
  field := mask b.field.text
  amount := shown b.amount
  unit := shown b.unit
  label := labelCells b.label

theorem Bucket.mask_text (b : Bucket) :
    mask b.text = shown "SPAN(".toList ++ (mask b.field.text ++ (shown ", ".toList ++
      (shown b.amount ++ (shown b.unit ++ .plain ')' :: mask (asClause b.label))))) := by
  have hamount : ∀ c ∈ b.amount, isQuote c = false := fun c hc =>
    isQuote_of_isAliasChar (b.isAmount.isAliasChar c hc)
  have hunit : ∀ c ∈ b.unit, isQuote c = false := fun c hc =>
    isQuote_of_isAliasChar (isAliasChar_of_isLetter (b.isUnit c hc))
  rw [Bucket.text, mask_unquoted_append (by decide)]
  simp only [List.append_assoc]
  rw [mask_append b.field.balanced_text, mask_unquoted_append (by decide),
    mask_unquoted_append hamount, mask_unquoted_append hunit, mask_cons (by decide)]

theorem IsAmount.ne_nil {t : List Char} (h : IsAmount t) : t ≠ [] := by
  rcases h with h | ⟨whole, part, -, -, rfl⟩
  · exact h.1
  · simp

theorem stops_shown {p : Char → Bool} {w : List Char} (hne : w ≠ [])
    (h : ∀ c ∈ w, p c = false) (t : List Cell) : Stops p (shown w ++ t) := by
  obtain ⟨c, u, rfl⟩ := List.exists_cons_of_ne_nil hne
  exact stops_cons (x := .plain c) (h c List.mem_cons_self) _

/-- A written time bucket is read as such. -/
theorem Bucket.bucketing?_text (b : Bucket) {t : List Cell} (ht : EndsAlias t) :
    bucketing? (mask b.text ++ t) = some (b.bucketing, t) := by
  have hunit : ∀ c ∈ b.unit, isAliasChar c = true := fun c hc =>
    isAliasChar_of_isLetter (b.isUnit c hc)
  rw [b.mask_text]
  simp only [List.append_assoc, List.cons_append]
  -- From the last part to the first, what is left after each.
  generalize hu₅ : Cell.plain ')' :: (mask (asClause b.label) ++ t) = u₅
  generalize hu₄ : shown b.unit ++ u₅ = u₄
  generalize hu₃ : shown b.amount ++ u₄ = u₃
  have hfield : field? (mask b.field.text ++ (shown ", ".toList ++ u₃)) =
      some (mask b.field.text, shown ", ".toList ++ u₃) :=
    b.field.name?_text (stops_cons (by decide) _)
  have hamount : amount? u₃ = some (shown b.amount, u₄) := by
    rw [← hu₃]
    refine amount?_shown b.isAmount ?_ ?_
    · rw [← hu₄]
      exact stops_shown b.unit_ne_nil (fun c hc => isDigit_of_isLetter (b.isUnit c hc)) u₅
    · obtain ⟨c, u, hu⟩ := List.exists_cons_of_ne_nil b.unit_ne_nil
      rw [← hu₄, hu, shown_cons, List.cons_append, skipChar?, if_neg]
      rintro rfl
      exact absurd (b.isUnit '.' (by rw [hu]; exact List.mem_cons_self)) (by decide)
  have hunit? : run? isLetter u₄ = some (shown b.unit, u₅) := by
    rw [← hu₄, ← hu₅]
    exact run?_shown b.unit_ne_nil b.isUnit (stops_cons (by decide) _)
  have hb₂ : skipBlanks (mask b.field.text ++ (shown ", ".toList ++ u₃)) =
      mask b.field.text ++ (shown ", ".toList ++ u₃) :=
    skipBlanks_of_stops (b.field.stops_blank _)
  have hb₃ : skipBlanks (.plain ' ' :: u₃) = u₃ := by
    rw [← hu₃]
    exact skipBlanks_of_stops (stops_shown b.isAmount.ne_nil
      (fun c hc => isBlank_of_isAliasChar (b.isAmount.isAliasChar c hc)) u₄)
  have hb₄ : skipBlanks u₄ = u₄ := by
    rw [← hu₄]
    exact skipBlanks_of_stops (stops_shown b.unit_ne_nil
      (fun c hc => isBlank_of_isAliasChar (hunit c hc)) u₅)
  have h₁ (u : List Cell) : (skipKeyword? "span" (shown "SPAN(".toList ++ u)).bind
      (fun t => skipChar? '(' (skipBlanks t)) = some u := rfl
  have h₂ : skipChar? ',' (skipBlanks (shown ", ".toList ++ u₃)) = some (.plain ' ' :: u₃) := rfl
  have h₃ : skipChar? ')' (skipBlanks u₅) = some (mask (asClause b.label) ++ t) := by
    rw [← hu₅]
    rfl
  rw [bucketing?]
  simp only [Option.bind_eq_bind, ← Option.bind_assoc, h₁]
  simp only [Option.bind_some, hb₂, hfield, h₂, hb₃, hamount, hb₄, hunit?, h₃,
    optionalAlias_asClause b.label ht]
  rfl

theorem fieldNameChars_text (f : Field) : fieldNameChars f.text = f.name := by
  rcases f.text_cases with ⟨-, ht, -, hn, -⟩ | ⟨q, rfl | rfl, -, ht⟩
  · rw [ht, fieldNameChars_unquoted fun c hc => (hn c hc).2, f.trimmed]
  · rw [ht, fieldNameChars_backQuoted f.unticked, f.trimmed]
  · rw [ht, fieldNameChars_doubleQuoted f.unticked, f.trimmed]

/-- The time bucket stands for what it was written for. -/
theorem Bucket.bucket_bucketing (b : Bucket) : b.bucketing.bucket = b.bucket := by
  rw [Bucketing.bucket, Bucket.bucketing, sources_mask, fieldNameChars_text, sourceText,
    sources_shown, sourceText, sources_shown, labelName_labelCells]
  rfl

end QueryStats.Written
