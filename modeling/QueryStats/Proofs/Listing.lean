import QueryStats.Proofs.Recognition

/-!
# Reading a written list

The list after a grouping keyword is read into the items that it was written from, a gap before each
(`listPieces_items`).  A bare field named like the keyword of a time bucket is no trouble: what
follows a field is no parenthesis.
-/

namespace QueryStats.Query

open Text

/-- Whether what follows an item of a list neither belongs to the item nor makes it a call. -/
structure EndsItem (t : List Cell) : Prop extends EndsAlias t where
  field : Stops isFieldChar t
  call : opensParenthesis t = false

theorem endsItem_nil : EndsItem [] := ⟨endsAlias_nil, stops_nil _, rfl⟩

theorem endsItem_separator (t : List Cell) : EndsItem (shown ", ".toList ++ t) :=
  ⟨⟨rfl, stops_cons (x := .plain ',') (by decide) _⟩,
    stops_cons (x := .plain ',') (by decide) _, rfl⟩

/-! ## Fields that no time bucket begins with -/

theorem stops_isFieldChar_of_opensParenthesis {t : List Cell} (h : opensParenthesis t = true) :
    Stops isFieldChar t := by
  intro x hx
  cases t with
  | nil => cases hx
  | cons y t =>
    obtain rfl := Option.some.inj hx
    by_cases hb : isBlank y.face = true
    · simp [isFieldChar, hb]
    · have hs : skipBlanks (y :: t) = y :: t :=
        skipBlanks_of_stops (stops_cons (Bool.not_eq_true _ ▸ hb) t)
      rw [opensParenthesis, hs, skipChar?] at h
      split at h
      · next hy => rw [hy]; decide
      · cases h

/-- A field that no parenthesis follows is not the beginning of a time bucket. -/
theorem bucketing?_eq_none {t name rest : List Cell} (h : field? t = some (name, rest))
    (hr : opensParenthesis rest = false) : bucketing? t = none := by
  rcases hb : bucketing? t with _ | b
  · rfl
  simp only [bucketing?, Option.bind_eq_bind, Option.bind_eq_some_iff] at hb
  obtain ⟨t₁, h₁, t₂, h₂, -⟩ := hb
  have hp : opensParenthesis t₁ = true := by rw [opensParenthesis, h₂]; rfl
  obtain ⟨word, rfl, hw⟩ := dropKeyword?_append h₁
  have hl := isAliasChar_of_fold hw (by decide)
  obtain ⟨x, u, rfl⟩ : ∃ x u, word = x :: u := by
    cases word with
    | nil => cases hw
    | cons x u => exact ⟨x, u, rfl⟩
  have hq : ∀ q, isQuote q = true → x.face ≠ q := by
    rintro q hq rfl
    rw [isQuote_of_isAliasChar (hl x List.mem_cons_self)] at hq
    cases hq
  have hf : field? (x :: u ++ t₁) = some (x :: u, t₁) := by
    rw [field?, name?, List.cons_append, quoted?_of_face_ne (hq _ (by decide)),
      quoted?_of_face_ne (hq _ (by decide)), Option.none_or, Option.none_or, ← List.cons_append]
    exact run?_append_of_stops (by simp) (fun y hy => isFieldChar_of_isAliasChar (hl y hy))
      (stops_isFieldChar_of_opensParenthesis hp)
  rw [hf, Option.some.injEq, Prod.mk.injEq] at h
  rw [← h.2, hp] at hr
  cases hr

/-! ## One item of a list -/

/-- A field that no parenthesis follows is an item of a list. -/
theorem item?_of_field? {name t : List Cell} (h : field? (name ++ t) = some (name, t))
    (ht : opensParenthesis t = false) : item? (name ++ t) = some (.field name, t) := by
  simp only [item?, bucketing?_eq_none h ht, h, Option.map_some, ht, Bool.false_eq_true, if_false]

theorem item?_of_bucketing? {text t : List Cell} {b : Bucketing}
    (h : bucketing? (text ++ t) = some (b, t)) :
    item? (text ++ t) = some (.bucketing text b, t) := by
  simp only [item?, h, upTo_append]

theorem listPieces_of_none {t : List Cell} (h : item? (t.dropWhile Cell.isGap) = none) :
    listPieces t = ([.gap (t.takeWhile Cell.isGap)], t.dropWhile Cell.isGap) := by
  rw [listPieces]
  split
  · rfl
  · next hs => rw [h] at hs; cases hs

theorem listPieces_of_some {t rest : List Cell} {p : Piece}
    (h : item? (t.dropWhile Cell.isGap) = some (p, rest)) :
    listPieces t =
      if commaFollows rest then
        (.gap (t.takeWhile Cell.isGap) :: p :: (listPieces rest).1, (listPieces rest).2)
      else ([.gap (t.takeWhile Cell.isGap), p], rest) := by
  rw [listPieces]
  split
  · next hn => rw [h] at hn; cases hn
  · next p' rest' hs =>
    rw [h, Option.some.injEq, Prod.mk.injEq] at hs
    obtain ⟨rfl, rfl⟩ := hs
    rfl

end QueryStats.Query

namespace QueryStats.Written

open Text Query

/-! ## Items -/

/-- The piece that an item is read as. -/
def Item.piece : Item → Piece
  | bucket b => .bucketing (mask b.text) b.bucketing
  | field f => .field (mask f.text)

theorem Bucket.balanced_text (b : Bucket) : Balanced b.text := by
  have hu {t : List Char} (h : ∀ c ∈ t, isAliasChar c = true) : Balanced t :=
    balanced_of_unquoted fun c hc => isQuote_of_isAliasChar (h c hc)
  have h : Balanced (')' :: asClause b.label) := balanced_asClause b.label
  exact (show Balanced "SPAN(".toList by decide).append
    ((((b.field.balanced_text.append (by decide)).append (hu b.isAmount.isAliasChar)).append
      (hu fun c hc => isAliasChar_of_isLetter (b.isUnit c hc))).append h)

theorem Item.balanced_text (i : Item) : Balanced i.text := by
  cases i with
  | bucket b => exact b.balanced_text
  | field f => exact f.balanced_text

/-- An item starts with no gap. -/
theorem Item.stops_gap (i : Item) (t : List Cell) :
    Stops (fun c => Text.isBlank c || c = ',') (mask i.text ++ t) := by
  cases i with
  | bucket b =>
    rw [Item.text, b.mask_text]
    exact stops_cons (x := .plain 'S') (by decide) _
  | field f =>
    obtain ⟨c, u, hu, hc, hf⟩ := f.head_text
    have hne : c ≠ ',' := by
      rintro rfl
      rcases hf with hf | hf <;> exact absurd hf (by decide)
    rw [Item.text, hu]
    exact stops_cons (x := .plain c) (by simp [hc, hne]) _

/-- A written item is read as such. -/
theorem Item.item?_text (i : Item) {t : List Cell} (ht : EndsItem t) :
    item? (mask i.text ++ t) = some (i.piece, t) := by
  cases i with
  | bucket b => exact item?_of_bucketing? (b.bucketing?_text ht.toEndsAlias)
  | field f => exact item?_of_field? (f.name?_text ht.field) ht.call

/-! ## Lists -/

theorem commaList_cons_cons (t u : List Char) (ts : List (List Char)) :
    commaList (t :: u :: ts) = t ++ (", ".toList ++ commaList (u :: ts)) := by
  simp [commaList]

theorem mask_commaList_cons_cons {t : List Char} (h : Balanced t) (u : List Char)
    (ts : List (List Char)) :
    mask (commaList (t :: u :: ts)) =
      mask t ++ (shown ", ".toList ++ mask (commaList (u :: ts))) := by
  rw [commaList_cons_cons, mask_append h, mask_unquoted_append (by decide)]

theorem listPieces_item {gap t rest : List Cell} {p : Piece} (hg : ∀ x ∈ gap, x.isGap = true)
    (ht : Stops (fun c => Text.isBlank c || c = ',') t) (h : item? t = some (p, rest)) :
    listPieces (gap ++ t) =
      if commaFollows rest then (.gap gap :: p :: (listPieces rest).1, (listPieces rest).2)
      else ([.gap gap, p], rest) := by
  have htake : (gap ++ t).takeWhile Cell.isGap = gap := takeWhile_append_of_stops hg ht
  have hdrop : (gap ++ t).dropWhile Cell.isGap = t := dropWhile_append_of_stops hg ht
  rw [listPieces_of_some (by rw [hdrop, h]), htake]

/-- The pieces that items are read as, a separator before each. -/
def itemPieces (is : List Item) : List Piece :=
  is.flatMap fun i => [.gap (shown ", ".toList), i.piece]

/-- A written list is read into its items, a gap before each. -/
theorem listPieces_items (i : Item) (is : List Item) {gap t : List Cell}
    (hg : ∀ x ∈ gap, x.isGap = true) (ht : EndsItem t) (hc : commaFollows t = false) :
    listPieces (gap ++ (mask (commaList ((i :: is).map Item.text)) ++ t)) =
      (.gap gap :: i.piece :: itemPieces is, t) := by
  induction is generalizing i gap with
  | nil =>
    have hi : commaList ([i].map Item.text) = i.text := by simp [commaList]
    rw [hi, listPieces_item hg (i.stops_gap t) (i.item?_text ht), if_neg (by simp [hc])]
    rfl
  | cons j is ih =>
    have hcomma (u : List Cell) : commaFollows (shown ", ".toList ++ u) = true := rfl
    have hm : mask (commaList ((i :: j :: is).map Item.text)) =
        mask i.text ++ (shown ", ".toList ++ mask (commaList ((j :: is).map Item.text))) :=
      mask_commaList_cons_cons i.balanced_text _ _
    rw [hm, List.append_assoc, List.append_assoc,
      listPieces_item hg (i.stops_gap _) (i.item?_text (endsItem_separator _)), if_pos (hcomma _),
      ih j (by decide)]
    rfl

/-! ## What a list asks for -/

/-- The field that an item names. -/
def Item.name? : Item → Option String
  | bucket _ => none
  | field f => if f.name = [] then none else some (String.ofList f.name)

/-- The time bucket that an item is. -/
def Item.bucket? : Item → Option QueryStats.Bucket
  | bucket b => some b.bucket
  | field _ => none

theorem groupField?_mask_text (f : Field) :
    groupField? (mask f.text) = (Item.field f).name? := by
  rw [groupField?, sources_mask, fieldNameChars_text, Item.name?]
  cases f.name <;> rfl

theorem filterMap_field?_items (is : List Item) :
    ((itemPieces is).filterMap Piece.field?).filterMap
      groupField? = is.filterMap Item.name? := by
  induction is with
  | nil => rfl
  | cons i is ih =>
    cases i with
    | bucket b => exact ih
    | field f =>
      rw [List.filterMap_cons, ← groupField?_mask_text, ← ih]
      rfl

theorem filterMap_bucketing?_items (is : List Item) :
    ((itemPieces is).filterMap Piece.bucketing?).map
      Bucketing.bucket = is.filterMap Item.bucket? := by
  induction is with
  | nil => rfl
  | cons i is ih =>
    cases i with
    | bucket b =>
      rw [List.filterMap_cons, Item.bucket?, ← b.bucket_bucketing, ← ih]
      rfl
    | field f => exact ih

end QueryStats.Written
