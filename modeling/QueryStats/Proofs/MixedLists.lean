import QueryStats.Proofs.Bucketings
import QueryStats.Proofs.Grouped
import QueryStats.Proofs.Joining

/-!
# Lists of fields and time buckets

A list after a grouping keyword may name fields and hold time buckets in any order, with one or more
commas and any white space between two entries.  The query groups by all the fields, in order, and
by the last of the time buckets (`ofQuery_mixedList`).  Each entry is read to its end, since what
separates it from the next can be taken for no part of it.
-/

namespace QueryStats.Written

open Text Query

/-! ## Entries -/

/-- A field that a list names: its text, which spells a name. -/
structure Plain where
  text : List Char
  isToken : IsToken isFieldChar text
  named : fieldNameChars text ≠ []

/-- The clause that gives a label: the keyword in any case, and the name as written. -/
structure Label where
  before : Space
  keyword : List Char
  spells : keyword.map fold = "as".toList
  after : Space
  name : List Char
  isToken : IsToken isAliasChar name

def Label.text (l : Label) : List Char :=
  l.before.text ++ (l.keyword ++ (l.after.text ++ l.name))

/-- The text of an optional label. -/
def labelClause (label : Option Label) : List Char := (label.map Label.text).getD []

/-- A time bucket, the keyword in any case and with white space between any two parts. -/
structure Span where
  keyword : List Char
  spells : keyword.map fold = "span".toList
  beforeOpening : Gap
  afterOpening : Gap
  field : List Char
  isField : IsToken isFieldChar field
  beforeComma : Gap
  afterComma : Gap
  amount : List Char
  isAmount : IsAmount amount
  beforeUnit : Gap
  unit : List Char
  unit_ne_nil : unit ≠ []
  isUnit : ∀ c ∈ unit, isLetter c = true
  beforeClosing : Gap
  label : Option Label

def Span.text (s : Span) : List Char :=
  s.keyword ++ (s.beforeOpening.text ++ '(' :: (s.afterOpening.text ++ (s.field ++
    (s.beforeComma.text ++ ',' :: (s.afterComma.text ++ (s.amount ++ (s.beforeUnit.text ++
      (s.unit ++ (s.beforeClosing.text ++ ')' :: labelClause s.label)))))))))

/-- The time bucket that the text stands for. -/
def Span.bucket (s : Span) : QueryStats.Bucket where
  field := String.ofList (fieldNameChars s.field)
  amount := String.ofList s.amount
  unit := String.ofList s.unit
  kind := ""
  label := (s.label.map fun l => String.ofList (unquoteChars l.name)).getD ""

/-- An entry of a list. -/
inductive Entry where
  | plain (p : Plain)
  | span (s : Span)

def Entry.text : Entry → List Char
  | plain p => p.text
  | span s => s.text

/-- The field that an entry names. -/
def Entry.name? : Entry → Option String
  | plain p => some (String.ofList (fieldNameChars p.text))
  | span _ => none

/-- The time bucket that an entry is. -/
def Entry.bucket? : Entry → Option QueryStats.Bucket
  | plain _ => none
  | span s => some s.bucket

/-! ## Lists -/

/-- White space and commas. -/
structure Lead where
  text : List Char
  isGap : ∀ c ∈ text, Text.isBlank c = true ∨ c = ','

/-- What stands between two entries: white space and at least one comma. -/
structure Separator extends Lead where
  comma : ',' ∈ text

/-- A list of one or more entries. -/
structure MixedList where
  lead : Lead
  first : Entry
  others : List (Separator × Entry)

/-- The text of some entries, each behind what separates it from the one before. -/
def othersText (os : List (Separator × Entry)) : List Char :=
  os.flatMap fun p => p.1.text ++ p.2.text

namespace MixedList

def entries (l : MixedList) : List Entry := l.first :: l.others.map Prod.snd

def text (l : MixedList) : List Char := l.lead.text ++ (l.first.text ++ othersText l.others)

end MixedList

/-! ## Words -/

section

variable {word : List Char} {keyword : String} (hword : word.map fold = keyword.toList)
  (hk : ∀ c ∈ keyword.toList, c.isLower = true)

include hword hk

theorem isLetter_of_map_fold : ∀ c ∈ word, isLetter c = true := by
  intro c hc
  rw [isLetter]
  apply hk
  rw [← hword]
  exact List.mem_map_of_mem hc

theorem isQuote_of_map_fold : ∀ c ∈ word, isQuote c = false := fun c hc =>
  isQuote_of_isAliasChar (isAliasChar_of_isLetter (isLetter_of_map_fold hword hk c hc))

theorem isInert_of_map_fold : ∀ c ∈ word, isInert c = true := fun c hc =>
  isInert_of_isAliasChar (isAliasChar_of_isLetter (isLetter_of_map_fold hword hk c hc))

end

theorem map_fold_shown {word ks : List Char} (h : word.map fold = ks) :
    (shown word).map (fold ·.face) = ks := by
  rw [shown, List.map_map]
  exact h

/-! ## Reading a label -/

theorem IsToken.isName {isBare : Char → Bool} (hb : isBare backQuote = false)
    (hd : isBare doubleQuote = false) {text : List Char} (h : IsToken isBare text) {t : List Cell}
    (ht : Stops isBare t) : IsName isBare (mask text) t :=
  ((name?_eq_some_iff hb hd).1 (h.name? ht)).1

namespace Label

variable (l : Label)

theorem mask_text : mask l.text = shown l.before.text ++
    (shown l.keyword ++ (shown l.after.text ++ mask l.name)) := by
  rw [text, l.before.mask_append, mask_unquoted_append (isQuote_of_map_fold l.spells (by decide)),
    l.after.mask_append]

theorem balanced : Balanced l.text :=
  l.before.balanced.append ((balanced_of_unquoted (isQuote_of_map_fold l.spells (by decide))).append
    (l.after.balanced.append l.isToken.balanced))

theorem commentFree : CommentFree l.text :=
  CommentFree.inert_append (fun _ => l.before.isInert) (CommentFree.inert_append
    (isInert_of_map_fold l.spells (by decide))
    (CommentFree.inert_append (fun _ => l.after.isInert) l.isToken.commentFree))

end Label

theorem Space.isGap_shown (s : Space) : IsGap (shown s.text) :=
  ⟨by simpa [shown] using s.ne_nil, s.shown_blank⟩

/-- An optional label is read where no other one can follow. -/
theorem isLabelling_labelClause (label : Option Label) {t : List Cell} (ht : EndsAlias t) :
    IsLabelling (mask (labelClause label)) (label.map fun l => mask l.name) t := by
  cases label with
  | none =>
    refine ⟨rfl, fun clause name rest hsplit hc => ?_⟩
    have := ht.alias?
    rw [alias?_eq_some_iff.2 ⟨clause, hsplit, hc⟩] at this
    cases this
  | some l =>
    exact ⟨shown l.before.text, shown l.keyword, shown l.after.text, l.mask_text,
      l.before.isGap_shown, map_fold_shown l.spells, l.after.isGap_shown,
      l.isToken.isName (by decide) (by decide) ht.stops⟩

theorem balanced_labelClause (label : Option Label) : Balanced (labelClause label) := by
  cases label with
  | none => exact balanced_nil
  | some l => exact l.balanced

theorem commentFree_labelClause (label : Option Label) : CommentFree (labelClause label) := by
  cases label with
  | none => exact commentFree_nil
  | some l => exact l.commentFree

/-! ## Reading a time bucket -/

namespace Span

variable (s : Span)

/-- The time bucket that a reader finds in its text. -/
def bucketing : Bucketing where
  field := mask s.field
  amount := shown s.amount
  unit := shown s.unit
  label := s.label.map fun l => mask l.name

theorem isQuote_amount : ∀ c ∈ s.amount, isQuote c = false := fun c hc =>
  isQuote_of_isAliasChar (s.isAmount.isAliasChar c hc)

theorem isQuote_unit : ∀ c ∈ s.unit, isQuote c = false := fun c hc =>
  isQuote_of_isAliasChar (isAliasChar_of_isLetter (s.isUnit c hc))

theorem mask_text :
    mask s.text = shown s.keyword ++ (shown s.beforeOpening.text ++ .plain '(' ::
      (shown s.afterOpening.text ++ (mask s.field ++ (shown s.beforeComma.text ++ .plain ',' ::
        (shown s.afterComma.text ++ (shown s.amount ++ (shown s.beforeUnit.text ++
          (shown s.unit ++ (shown s.beforeClosing.text ++ .plain ')' ::
            mask (labelClause s.label)))))))))) := by
  rw [text, mask_unquoted_append (isQuote_of_map_fold s.spells (by decide)), Gap.mask_append,
    mask_cons (by decide), Gap.mask_append, mask_append s.isField.balanced, Gap.mask_append,
    mask_cons (by decide), Gap.mask_append, mask_unquoted_append s.isQuote_amount, Gap.mask_append,
    mask_unquoted_append s.isQuote_unit, Gap.mask_append, mask_cons (by decide)]

/-- A written time bucket is read as such. -/
theorem bucketing?_text {t : List Cell} (ht : EndsAlias t) :
    bucketing? (mask s.text ++ t) = some (s.bucketing, t) := by
  have hfield : IsFieldToken (mask s.field) :=
    (s.isField.isName (by decide) (by decide) (stops_nil _)).isFieldToken
  have hspan : IsSpan (shown s.keyword ++ (shown s.beforeOpening.text ++ .plain '(' ::
      (shown s.afterOpening.text ++ (mask s.field ++ (shown s.beforeComma.text ++ .plain ',' ::
        (shown s.afterComma.text ++ (shown s.amount ++ (shown s.beforeUnit.text ++
          (shown s.unit ++ (shown s.beforeClosing.text ++ [.plain ')']))))))))))
      (mask s.field) (shown s.amount) (shown s.unit) :=
    ⟨_, _, _, _, _, _, _, _, _, _, rfl, map_fold_shown s.spells, s.beforeOpening.shown_blank, rfl,
      s.afterOpening.shown_blank, hfield, s.beforeComma.shown_blank, rfl, s.afterComma.shown_blank,
      (faces_shown s.amount).symm ▸ s.isAmount, s.beforeUnit.shown_blank,
      ⟨by simpa [shown] using s.unit_ne_nil, face_of_mem_shown s.isUnit⟩,
      s.beforeClosing.shown_blank, rfl⟩
  refine bucketing?_of_isBucketing ⟨_, mask (labelClause s.label), ?_, hspan,
    isLabelling_labelClause s.label ht⟩
  rw [s.mask_text]
  simp

/-- What is read stands for the time bucket. -/
theorem bucket_bucketing : s.bucketing.bucket = s.bucket := by
  have hlabel : labelName (s.label.map fun l => mask l.name) =
      (s.label.map fun l => String.ofList (unquoteChars l.name)).getD "" := by
    cases s.label with
    | none => rfl
    | some l => rw [Option.map_some, labelName, Option.map_some, sources_mask]; rfl
  simp only [Bucketing.bucket, bucketing, sources_mask, sourceText, sources_shown, hlabel, bucket]

theorem balanced : Balanced s.text := by
  have hb {w : List Char} (hw : Balanced w) (g : Gap) {c : Char} (hc : isQuote c = false) :
      Balanced (g.text ++ c :: w) :=
    g.balanced.append (Balanced.append (s := [c]) (balanced_of_unquoted (by simpa using hc)) hw)
  have hclosed := hb (balanced_labelClause s.label) s.beforeClosing (c := ')') rfl
  have hunit := s.beforeUnit.balanced.append ((balanced_of_unquoted s.isQuote_unit).append hclosed)
  have hamount := (balanced_of_unquoted s.isQuote_amount).append hunit
  have hcomma := hb (s.afterComma.balanced.append hamount) s.beforeComma (c := ',') rfl
  have hfield := s.afterOpening.balanced.append (s.isField.balanced.append hcomma)
  exact (balanced_of_unquoted (isQuote_of_map_fold s.spells (by decide))).append
    (hb hfield s.beforeOpening rfl)

theorem commentFree : CommentFree s.text := by
  have hb {w : List Char} (hw : CommentFree w) (g : Gap) {c : Char} (hc : isInert c = true) :
      CommentFree (g.text ++ c :: w) :=
    CommentFree.inert_append (fun _ => g.isInert)
      (CommentFree.inert_append (s := [c]) (by simpa using hc) hw)
  have hgap {w : List Char} (hw : CommentFree w) (g : Gap) : CommentFree (g.text ++ w) :=
    CommentFree.inert_append (fun _ => g.isInert) hw
  have hclosed := hb (commentFree_labelClause s.label) s.beforeClosing (c := ')') rfl
  have hunit := hgap (CommentFree.inert_append (fun c hc => isInert_of_isAliasChar
    (isAliasChar_of_isLetter (s.isUnit c hc))) hclosed) s.beforeUnit
  have hamount := CommentFree.inert_append
    (fun c hc => isInert_of_isAliasChar (s.isAmount.isAliasChar c hc)) hunit
  have hcomma := hb (hgap hamount s.afterComma) s.beforeComma (c := ',') rfl
  have hfield := s.isField.commentFree.append s.isField.balanced hcomma
    (s.beforeComma.endsTerm rfl _ []).breaks.head
  exact CommentFree.inert_append (isInert_of_map_fold s.spells (by decide))
    (hb (hgap hfield s.afterOpening) s.beforeOpening rfl)

end Span

/-! ## Reading an entry -/

namespace Entry

variable (e : Entry)

/-- The piece that an entry is read as. -/
def piece : Entry → Piece
  | plain p => .field (mask p.text)
  | span s => .bucketing (mask s.text) s.bucketing

theorem balanced : Balanced e.text := by
  cases e with
  | plain p => exact p.isToken.balanced
  | span s => exact s.balanced

theorem commentFree : CommentFree e.text := by
  cases e with
  | plain p => exact p.isToken.commentFree
  | span s => exact s.commentFree

/-- An entry starts with no white space and no comma. -/
theorem stops_gap (t : List Cell) :
    Stops (fun c => Text.isBlank c || c = ',') (mask e.text ++ t) := by
  cases e with
  | plain p =>
    refine (p.isToken.isName (by decide) (by decide) (stops_nil _)).isFieldToken.stops (by decide)
      (by decide) (fun c hc => ?_) t
    rw [isBlank_of_isFieldChar hc, Bool.false_or, decide_eq_false_iff_not]
    rintro rfl
    exact absurd hc (by decide)
  | span s =>
    have hne : s.keyword ≠ [] := by
      intro h
      have := s.spells
      rw [h] at this
      cases this
    have hl := isLetter_of_map_fold s.spells (by decide)
    obtain ⟨c, w, hw⟩ := List.exists_cons_of_ne_nil hne
    have hc : isAliasChar c = true := by
      refine isAliasChar_of_isLetter (hl c ?_)
      rw [hw]
      exact List.mem_cons_self
    rw [text, s.mask_text, hw]
    refine stops_cons (x := .plain c) ?_ _
    rw [face_plain, isBlank_of_isAliasChar hc, Bool.false_or, decide_eq_false_iff_not]
    rintro rfl
    cases hc

/-- An entry is read to its end. -/
theorem item?_text {t : List Cell} (ht : EndsItem t) :
    item? (mask e.text ++ t) = some (e.piece, t) := by
  cases e with
  | plain p => exact item?_of_field? (p.isToken.name? ht.field) ht.call
  | span s => exact item?_of_bucketing? (s.bucketing?_text ht.toEndsAlias)

end Entry

/-! ## Reading a list -/

namespace Lead

variable (l : Lead)

theorem isBreak {c : Char} (h : c ∈ l.text) : isBreak c = true := by
  rcases l.isGap c h with h | rfl
  · exact isBreak_of_isBlank h
  · rfl

theorem isInert {c : Char} (h : c ∈ l.text) : isInert c = true := (of_isBreak (l.isBreak h)).2

theorem mask_append (w : List Char) : mask (l.text ++ w) = shown l.text ++ mask w :=
  mask_unquoted_append (fun _ h => isQuote_of_isInert (l.isInert h)) w

theorem shown_gap : ∀ x ∈ shown l.text, x.isGap = true :=
  face_of_mem_shown (p := fun c => (Text.isBlank c || c = ',') = true)
    fun c hc => by simpa using l.isGap c hc

end Lead

namespace Separator

variable (s : Separator)

/-- Up to its first comma, a separator is white space. -/
theorem exists_gap : ∃ (g : Gap) (w : List Char), s.text = g.text ++ ',' :: w := by
  obtain ⟨v, w, hv, hn⟩ := List.eq_append_cons_of_mem s.comma
  refine ⟨⟨v, fun c hc => ?_⟩, w, hv⟩
  have hm : c ∈ s.text := by
    rw [hv]
    exact List.mem_append_left _ hc
  exact (s.isGap c hm).resolve_right fun h => hn (h ▸ hc)

/-- An item of a list ends before a separator. -/
theorem endsItem (w : List Char) (t : List Cell) : EndsItem (mask (s.text ++ w) ++ t) := by
  obtain ⟨g, v, hv⟩ := s.exists_gap
  have hsplit : s.text ++ w = g.text ++ ',' :: (v ++ w) := by rw [hv]; simp
  rw [hsplit]
  have hterm := g.endsTerm (c := ',') rfl (v ++ w) t
  refine ⟨⟨hterm.alias?, hterm.breaks.stops_isAliasChar⟩, fun x hx => ?_, ?_⟩
  · rw [g.mask_append, mask_cons (by decide)] at hx
    cases hg : g.text with
    | nil =>
      rw [hg] at hx
      exact Option.some.inj hx ▸ by decide
    | cons c u =>
      have hc := g.isBlank c (by rw [hg]; exact List.mem_cons_self)
      rw [hg] at hx
      have hface : x.face = c := by rw [← Option.some.inj hx]; rfl
      rw [hface, isFieldChar, hc]
      rfl
  · rw [opensParenthesis, g.skipBlanks_append (by decide)]
    rfl

theorem commaFollows (t : List Cell) : commaFollows (shown s.text ++ t) = true := by
  rw [Query.commaFollows, List.takeWhile_append_of_pos s.shown_gap, List.any_append,
    Bool.or_eq_true]
  refine Or.inl (List.any_eq_true.2 ⟨.plain ',', ?_, rfl⟩)
  exact List.mem_map_of_mem s.comma

end Separator

/-- The pieces that these entries are read as. -/
def othersPieces (os : List (Separator × Entry)) : List Piece :=
  os.flatMap fun p => [.gap (shown p.1.text), p.2.piece]

/-- Entries are read one after the other, what separates them before each. -/
theorem listPieces_entries (e : Entry) (os : List (Separator × Entry)) {gap : List Cell}
    (hg : ∀ x ∈ gap, x.isGap = true) :
    listPieces (gap ++ mask (e.text ++ othersText os)) =
      (.gap gap :: e.piece :: othersPieces os, []) := by
  induction os generalizing e gap with
  | nil =>
    have hnil : mask (e.text ++ othersText []) = mask e.text ++ [] := mask_append e.balanced []
    rw [hnil, listPieces_item hg (e.stops_gap _) (e.item?_text endsItem_nil)]
    rfl
  | cons o os ih =>
    obtain ⟨s, e'⟩ := o
    have hcons : othersText ((s, e') :: os) = s.text ++ (e'.text ++ othersText os) := by
      simp [othersText]
    have hend := s.endsItem (e'.text ++ othersText os) []
    rw [List.append_nil, s.mask_append] at hend
    rw [hcons, mask_append e.balanced, s.mask_append,
      listPieces_item hg (e.stops_gap _) (e.item?_text hend), if_pos (s.commaFollows _),
      ih e' s.shown_gap]
    rfl

theorem commentFree_entries (e : Entry) (os : List (Separator × Entry)) :
    CommentFree (e.text ++ othersText os) := by
  induction os generalizing e with
  | nil => simpa [othersText] using e.commentFree
  | cons o os ih =>
    obtain ⟨s, e'⟩ := o
    have hcons : othersText ((s, e') :: os) = s.text ++ (e'.text ++ othersText os) := by
      simp [othersText]
    obtain ⟨g, v, hv⟩ := s.exists_gap
    have hsigns : ∀ c ∈ (s.text ++ (e'.text ++ othersText os)).head?, c ≠ '-' ∧ c ≠ '*' := by
      rw [hv, List.append_assoc]
      exact (g.endsTerm (c := ',') rfl _ []).breaks.head
    rw [hcons]
    exact e.commentFree.append e.balanced
      (CommentFree.inert_append (fun _ => s.isInert) (ih e')) hsigns

namespace MixedList

variable (l : MixedList)

/-- The pieces that a list is read as behind a blank. -/
def pieces : List Piece :=
  .gap (shown (' ' :: l.lead.text)) :: l.first.piece :: othersPieces l.others

theorem listPieces_text : listPieces (.plain ' ' :: mask l.text) = (l.pieces, []) := by
  have hgap : ∀ x ∈ shown (' ' :: l.lead.text), x.isGap = true :=
    List.forall_mem_cons.2 ⟨rfl, l.lead.shown_gap⟩
  have hmask : Cell.plain ' ' :: mask l.text =
      shown (' ' :: l.lead.text) ++ mask (l.first.text ++ othersText l.others) :=
    congrArg (Cell.plain ' ' :: ·) (l.lead.mask_append _)
  rw [hmask, listPieces_entries l.first l.others hgap]
  rfl

/-- What is taken from the pieces of a list is taken from its entries. -/
theorem filterMap_pieces {α : Type} {f : Piece → Option α} (hf : ∀ t, f (.gap t) = none) :
    l.pieces.filterMap f = l.entries.filterMap (f ·.piece) := by
  have hothers (os : List (Separator × Entry)) :
      (othersPieces os).filterMap f = (os.map Prod.snd).filterMap (f ·.piece) := by
    induction os with
    | nil => rfl
    | cons o os ih =>
      have hcons : othersPieces (o :: os) =
          .gap (shown o.1.text) :: o.2.piece :: othersPieces os := rfl
      rw [hcons, List.filterMap_cons_none (hf _), List.map_cons, List.filterMap_cons,
        List.filterMap_cons, ih]
  rw [pieces, entries, List.filterMap_cons_none (hf _), List.filterMap_cons, List.filterMap_cons,
    hothers]

/-- The pieces of a list make up what it groups by. -/
theorem ofPieces_pieces : Clause.ofPieces l.pieces = .ofGrouping
    ⟨l.entries.filterMap Entry.name?, (l.entries.filterMap Entry.bucket?).getLast?⟩ := by
  have hcalls : l.entries.filterMap (Piece.requested? ·.piece) = [] :=
    List.filterMap_eq_nil_iff.2 fun e _ => by cases e <;> rfl
  have hfields : (l.entries.filterMap (Piece.field? ·.piece)).filterMap groupField? =
      l.entries.filterMap Entry.name? := by
    rw [List.filterMap_filterMap]
    refine List.filterMap_congr fun e _ => ?_
    cases e with
    | plain p =>
      show groupField? (mask p.text) = some (String.ofList (fieldNameChars p.text))
      obtain ⟨c, w, hw⟩ := List.exists_cons_of_ne_nil p.named
      rw [groupField?, sources_mask, hw]
    | span s => rfl
  have hbuckets : (l.entries.filterMap (Piece.bucketing? ·.piece)).map Bucketing.bucket =
      l.entries.filterMap Entry.bucket? := by
    rw [List.map_filterMap]
    refine List.filterMap_congr fun e _ => ?_
    cases e with
    | plain p => rfl
    | span s => exact congrArg some s.bucket_bucketing
  rw [Clause.ofPieces, l.filterMap_pieces fun _ => rfl, l.filterMap_pieces fun _ => rfl,
    l.filterMap_pieces fun _ => rfl, hcalls, hfields, ← List.getLast?_map, hbuckets]
  rfl

theorem commentFree_text : CommentFree l.text :=
  CommentFree.inert_append (fun _ => l.lead.isInert) (commentFree_entries l.first l.others)

/-- A query that groups by a mixed list groups by its fields, in order, and by the last of its time
buckets; none of the buckets is taken for an aggregation. -/
theorem ofQuery_mixedList : Clause.ofQuery (groupedBy l.text) =
    { aggregations := [countAll.aggregation]
      grouping :=
        { fields := l.entries.filterMap Entry.name?
          bucket := (l.entries.filterMap Entry.bucket?).getLast? } } := by
  rw [ofQuery_groupedBy l.commentFree_text l.listPieces_text, l.ofPieces_pieces, clauseFrom_nil,
    Clause.andThen_ofAggregations_nil]
  simp [Clause.andThen, Clause.ofAggregations, Clause.ofGrouping]

end MixedList

/-- One tab. -/
def tab : Space := ⟨⟨['\t'], by decide⟩, by decide⟩

/-- A time bucket by the hour, with a label. -/
def byHour : Span where
  keyword := "Span".toList
  spells := by decide
  beforeOpening := tab.toGap
  afterOpening := tab.toGap
  field := "ts".toList
  isField := Or.inl ⟨by decide, by decide, by decide⟩
  beforeComma := tab.toGap
  afterComma := tab.toGap
  amount := ['1']
  isAmount := Or.inl ⟨by decide, by decide⟩
  beforeUnit := tab.toGap
  unit := ['h']
  unit_ne_nil := by decide
  isUnit := by decide
  beforeClosing := tab.toGap
  label := some
    { before := tab
      keyword := "as".toList
      spells := by decide
      after := tab
      name := "hour".toList
      isToken := Or.inl ⟨by decide, by decide, by decide⟩ }

/-- A field before a time bucket, with two commas between them. -/
def levelByHour : MixedList where
  lead := ⟨[','], by decide⟩
  first := .plain ⟨"level".toList, Or.inl ⟨by decide, by decide, by decide⟩, by decide⟩
  others := [(⟨⟨" ,,".toList, by decide⟩, by decide⟩, .span byHour)]

example : levelByHour.text = ",level ,,Span\t(\tts\t,\t1\th\t)\tas\thour".toList := by decide

end QueryStats.Written
