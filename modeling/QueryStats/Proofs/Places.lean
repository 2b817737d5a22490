import Mathlib.Data.List.Pairwise
import QueryStats.Proofs.Bucketings
import QueryStats.Proofs.Occurrences

/-!
# Where fields and time buckets stand

What a query groups by is read at places of its text, as its aggregations are: a field is a token of
a list that no parenthesis follows (`FieldPlace`), a time bucket a stretch of its form in a list
(`BucketPlace`).  Each step of the scan puts what it reads at places in a row
(`exists_placed_read`), so the whole scan does (`exists_placed`); and no field stands in a call or
in a time bucket (`ofQuery_fields`).
-/

namespace QueryStats.Query

open Text

/-! ## Places -/

/-- Whether the cells between two numbers stand in a list that the scan reads behind a grouping
keyword. -/
def Listed (t : List Cell) (start stop : Nat) : Prop :=
  ∃ before keyword items, Reads t before (.keyword keyword true :: items) ∧
    before.length + keyword.length ≤ start ∧
      stop ≤ before.length + keyword.length + (texts items).length

/-- A place of a text where a field stands: a token of a list that spells a name and that no
parenthesis follows. -/
structure FieldPlace (t : List Cell) where
  before : List Cell
  text : List Cell
  after : List Cell
  split : before ++ (text ++ after) = t
  listed : Listed t before.length (before.length + text.length)
  isName : IsName isFieldChar text after
  noCall : '(' ∉ (trimStart (faces after)).head?
  named : fieldName (sourceText text) ≠ ""

namespace FieldPlace

variable {t : List Cell} (f : FieldPlace t)

/-- The number of cells before the field. -/
def start : Nat := f.before.length

/-- The number of cells up to the end of the field. -/
def stop : Nat := f.before.length + f.text.length

/-- The name that the field spells. -/
def name : String := fieldName (sourceText f.text)

theorem start_lt_stop : f.start < f.stop := by
  refine Nat.lt_add_of_pos_right (List.length_pos_iff.2 fun h => ?_)
  rcases f.isName with ⟨x, body, y, ht, -⟩ | ⟨x, body, y, ht, -⟩ | ⟨hne, -⟩
  · rw [h] at ht
    cases ht
  · rw [h] at ht
    cases ht
  · exact hne h

end FieldPlace

/-- A place of a text where a time bucket stands in a list. -/
structure BucketPlace (t : List Cell) where
  before : List Cell
  text : List Cell
  after : List Cell
  bucketing : Bucketing
  split : before ++ (text ++ after) = t
  listed : Listed t before.length (before.length + text.length)
  isBucketing : IsBucketing text bucketing after

namespace BucketPlace

variable {t : List Cell} (b : BucketPlace t)

/-- The number of cells before the time bucket. -/
def start : Nat := b.before.length

/-- The number of cells up to the end of the time bucket. -/
def stop : Nat := b.before.length + b.text.length

end BucketPlace

/-- A place of something that a query asks for: a group field, a time bucket, or a call that asks
for an aggregation and that nothing read before runs into. -/
inductive Place (t : List Cell) where
  | field (f : FieldPlace t)
  | bucket (b : BucketPlace t)
  | call (o : Occurrence t) (requested : o.Requested) (free : o.Free)

namespace Place

variable {t : List Cell}

def start : Place t → Nat
  | field f => f.start
  | bucket b => b.start
  | call o _ _ => o.start

def stop : Place t → Nat
  | field f => f.stop
  | bucket b => b.stop
  | call o _ _ => o.stop

def field? : Place t → Option (FieldPlace t)
  | field f => some f
  | _ => none

def bucket? : Place t → Option (BucketPlace t)
  | bucket b => some b
  | _ => none

def call? : Place t → Option (Occurrence t)
  | call o _ _ => some o
  | _ => none

end Place

/-! ## Pieces at places -/

/-- Whether some places, in order and apart from one another between two numbers of cells, are those
of what some pieces ask for. -/
structure Placed (t : List Cell) (n m : Nat) (ps : List Piece) (pl : List (Place t)) : Prop where
  le : n ≤ m
  within : ∀ p ∈ pl, n ≤ p.start ∧ p.stop ≤ m
  ordered : pl.Pairwise fun a b => a.stop ≤ b.start
  fields : (pl.filterMap Place.field?).map FieldPlace.name =
    (ps.filterMap Piece.field?).filterMap groupField?
  buckets : (pl.filterMap Place.bucket?).map BucketPlace.bucketing =
    ps.filterMap Piece.bucketing?
  calls : (pl.filterMap Place.call?).map Occurrence.call = ps.filterMap Piece.requested?

theorem Place.mem_of_mem_fields {t : List Cell} {pl : List (Place t)} {f : FieldPlace t}
    (h : f ∈ pl.filterMap Place.field?) : .field f ∈ pl := by
  obtain ⟨p, hp, hf⟩ := List.mem_filterMap.1 h
  cases p with
  | field g => exact Option.some.inj hf ▸ hp
  | bucket b => cases hf
  | call o requested free => cases hf

theorem Place.mem_of_mem_buckets {t : List Cell} {pl : List (Place t)} {b : BucketPlace t}
    (h : b ∈ pl.filterMap Place.bucket?) : .bucket b ∈ pl := by
  obtain ⟨p, hp, hb⟩ := List.mem_filterMap.1 h
  cases p with
  | field f => cases hb
  | bucket c => exact Option.some.inj hb ▸ hp
  | call o requested free => cases hb

theorem Place.mem_of_mem_calls {t : List Cell} {pl : List (Place t)} {o : Occurrence t}
    (h : o ∈ pl.filterMap Place.call?) :
    ∃ (requested : o.Requested) (free : o.Free), .call o requested free ∈ pl := by
  obtain ⟨p, hp, ho⟩ := List.mem_filterMap.1 h
  cases p with
  | field f => cases ho
  | bucket b => cases ho
  | call o' requested free =>
    obtain rfl := Option.some.inj ho
    exact ⟨requested, free, hp⟩

namespace Placed

variable {t : List Cell} {n m k : Nat} {ps qs : List Piece} {pl ql : List (Place t)}

theorem append (h : Placed t n m ps pl) (h' : Placed t m k qs ql) :
    Placed t n k (ps ++ qs) (pl ++ ql) where
  le := Nat.le_trans h.le h'.le
  within p hp := by
    rcases List.mem_append.1 hp with hp | hp
    · exact ⟨(h.within p hp).1, Nat.le_trans (h.within p hp).2 h'.le⟩
    · exact ⟨Nat.le_trans h.le (h'.within p hp).1, (h'.within p hp).2⟩
  ordered := List.pairwise_append.2 ⟨h.ordered, h'.ordered, fun a ha b hb =>
    Nat.le_trans (h.within a ha).2 (h'.within b hb).1⟩
  fields := by simp only [List.filterMap_append, List.map_append, h.fields, h'.fields]
  buckets := by simp only [List.filterMap_append, List.map_append, h.buckets, h'.buckets]
  calls := by simp only [List.filterMap_append, List.map_append, h.calls, h'.calls]

/-- Pieces that ask for nothing are at no place. -/
theorem of_none (hle : n ≤ m) (hf : (ps.filterMap Piece.field?).filterMap groupField? = [])
    (hb : ps.filterMap Piece.bucketing? = []) (hc : ps.filterMap Piece.requested? = []) :
    Placed t n m ps [] where
  le := hle
  within _ hp := (List.not_mem_nil hp).elim
  ordered := List.Pairwise.nil
  fields := hf.symm
  buckets := hb.symm
  calls := hc.symm

/-- A piece is at one place, which takes up all of it. -/
theorem single {p : Piece} {q : Place t} (hn : q.start = n) (hm : q.stop = m) (hle : n ≤ m)
    (hf : q.field?.toList.map FieldPlace.name = ([p].filterMap Piece.field?).filterMap groupField?)
    (hb : q.bucket?.toList.map BucketPlace.bucketing = [p].filterMap Piece.bucketing?)
    (hc : q.call?.toList.map Occurrence.call = [p].filterMap Piece.requested?) :
    Placed t n m [p] [q] where
  le := hle
  within r hr := by
    rw [List.mem_singleton.1 hr, hn, hm]
    exact ⟨Nat.le_refl _, Nat.le_refl _⟩
  ordered := List.pairwise_singleton _ _
  fields := by cases q <;> exact hf
  buckets := by cases q <;> exact hb
  calls := by cases q <;> exact hc

/-- Two places are apart, whichever comes first. -/
theorem apart (h : Placed t n m ps pl) {a b : Place t} (ha : a ∈ pl) (hb : b ∈ pl) (hne : a ≠ b) :
    a.stop ≤ b.start ∨ b.stop ≤ a.start := by
  have hsymm : Std.Symm fun a b : Place t => a.stop ≤ b.start ∨ b.stop ≤ a.start :=
    ⟨fun _ _ => Or.symm⟩
  have hpairs : pl.Pairwise fun a b => a.stop ≤ b.start ∨ b.stop ≤ a.start :=
    h.ordered.imp Or.inl
  exact hpairs.forall ha hb hne

theorem fields_pairwise (h : Placed t n m ps pl) :
    (pl.filterMap Place.field?).Pairwise fun a b => a.start < b.start ∧ a.stop ≤ b.start := by
  refine h.ordered.filterMap _ fun a a' hle f hf f' hf' => ?_
  cases a with
  | field g =>
    cases a' with
    | field g' =>
      obtain rfl := Option.some.inj hf
      obtain rfl := Option.some.inj hf'
      exact ⟨Nat.lt_of_lt_of_le g.start_lt_stop hle, hle⟩
    | _ => cases hf'
  | _ => cases hf

end Placed

/-! ## Items of a list -/

/-- An item of a list is a time bucket, a field, or a name before a parenthesis. -/
theorem item?_forms {t rest : List Cell} {p : Piece} (h : item? t = some (p, rest)) :
    ∃ text, t = text ++ rest ∧
      ((∃ b, IsBucketing text b rest ∧ p = .bucketing text b) ∨
        IsName isFieldChar text rest ∧
          (opensParenthesis rest = false ∧ p = .field text ∨ p = .callee text)) := by
  rw [item?] at h
  split at h
  · next b r hb =>
    obtain ⟨text, rfl, hform⟩ := bucketing?_eq_some_iff.1 hb
    rw [upTo_append, Option.some.injEq, Prod.mk.injEq] at h
    obtain ⟨rfl, rfl⟩ := h
    exact ⟨text, rfl, Or.inl ⟨b, hform, rfl⟩⟩
  · rw [Option.map_eq_some_iff] at h
    obtain ⟨⟨text, r⟩, hf, h⟩ := h
    obtain ⟨hname, rfl⟩ := (name?_eq_some_iff (by decide) (by decide)).1 hf
    obtain ⟨rfl, rfl⟩ := Prod.mk.inj h
    refine ⟨text, rfl, Or.inr ⟨hname, ?_⟩⟩
    rcases hp : opensParenthesis r with _ | _
    · exact Or.inl ⟨rfl, rfl⟩
    · exact Or.inr rfl

theorem notMem_head?_of_opensParenthesis {t : List Cell} (h : opensParenthesis t = false) :
    '(' ∉ (trimStart (faces t)).head? := by
  rw [opensParenthesis] at h
  rw [← faces_skipBlanks]
  intro hm
  cases hs : skipBlanks t with
  | nil =>
    rw [hs] at hm
    cases hm
  | cons x u =>
    rw [hs] at hm h
    have hx : x.face = '(' := Option.some.inj hm
    rw [skipChar?, if_pos hx] at h
    cases h

theorem groupField?_eq (cells : List Cell) :
    groupField? cells =
      if fieldName (sourceText cells) = "" then none else some (fieldName (sourceText cells)) := by
  rw [groupField?, fieldName, sourceText, String.toList_ofList]
  cases fieldNameChars (sources cells) with
  | nil => rfl
  | cons c w => simp

section

variable {t before rest after : List Cell} {ps : List Piece}

/-- What an item of a list asks for is at its place. -/
theorem exists_placed_item {p : Piece} (ht : before ++ rest = t) (h : item? rest = some (p, after))
    (hl : Listed t before.length (before.length + p.text.length)) :
    ∃ pl, Placed t before.length (before.length + p.text.length) [p] pl := by
  obtain ⟨text, rfl, ⟨b, hb, rfl⟩ | ⟨hname, ⟨hp, rfl⟩ | rfl⟩⟩ := item?_forms h
  · let place : BucketPlace t := ⟨before, text, after, b, ht, hl, hb⟩
    exact ⟨[.bucket place], .single rfl rfl (Nat.le_add_right _ _) rfl rfl rfl⟩
  · have hfield : ([Piece.field text].filterMap Piece.field?).filterMap groupField? =
        (groupField? text).toList := by
      show [text].filterMap groupField? = _
      rw [List.filterMap_cons]
      cases groupField? text <;> rfl
    rw [groupField?_eq] at hfield
    by_cases hnamed : fieldName (sourceText text) = ""
    · rw [if_pos hnamed] at hfield
      exact ⟨[], .of_none (Nat.le_add_right _ _) hfield rfl rfl⟩
    · rw [if_neg hnamed] at hfield
      let place : FieldPlace t :=
        ⟨before, text, after, ht, hl, hname, notMem_head?_of_opensParenthesis hp, hnamed⟩
      exact ⟨[.field place], .single rfl rfl (Nat.le_add_right _ _) hfield.symm rfl rfl⟩
  · exact ⟨[], .of_none (Nat.le_add_right _ _) rfl rfl rfl⟩

theorem Listed.mono {start stop start' stop' : Nat} (h : Listed t start stop) (hs : start ≤ start')
    (he : stop' ≤ stop) : Listed t start' stop' := by
  obtain ⟨b, keyword, items, hr, h₁, h₂⟩ := h
  exact ⟨b, keyword, items, hr, Nat.le_trans h₁ hs, Nat.le_trans he h₂⟩

/-- What an item and the white space and commas before it ask for is at a place. -/
theorem exists_placed_gap_item {gap : List Cell} {p : Piece} (ht : before ++ (gap ++ rest) = t)
    (h : item? rest = some (p, after))
    (hl : Listed t before.length (before.length + (texts [.gap gap, p]).length)) :
    ∃ pl, Placed t before.length (before.length + (texts [.gap gap, p]).length)
      [.gap gap, p] pl := by
  have hstop : before.length + (texts [.gap gap, p]).length =
      (before ++ gap).length + p.text.length := by
    simp only [texts_cons, texts_nil, Piece.text_gap, List.length_append, List.length_nil]
    omega
  have hgap : before.length ≤ (before ++ gap).length := by simp
  rw [hstop] at hl ⊢
  obtain ⟨pl, hpl⟩ := exists_placed_item (by rw [← ht, List.append_assoc]) h
    (hl.mono hgap (Nat.le_refl _))
  have hnothing : Placed t before.length (before ++ gap).length [.gap gap] [] :=
    .of_none hgap rfl rfl rfl
  exact ⟨[] ++ pl, hnothing.append hpl⟩

/-- What the items of a list ask for is at places in a row. -/
theorem exists_placed_list (ht : before ++ rest = t)
    (hl : Listed t before.length (before.length + (texts (listPieces rest).1).length)) :
    ∃ pl, Placed t before.length (before.length + (texts (listPieces rest).1).length)
      (listPieces rest).1 pl := by
  induction hn : rest.length using Nat.strong_induction_on generalizing before rest with
  | _ n ih =>
    subst hn
    rcases hi : item? (rest.dropWhile Cell.isGap) with _ | ⟨p, after⟩
    · rw [listPieces_of_none hi]
      exact ⟨[], .of_none (Nat.le_add_right _ _) rfl rfl rfl⟩
    have hgap : rest.takeWhile Cell.isGap ++ rest.dropWhile Cell.isGap = rest :=
      List.takeWhile_append_dropWhile
    have hitem := exists_placed_gap_item (by rw [hgap, ht]) hi
    rw [listPieces_of_some hi] at hl ⊢
    by_cases hc : commaFollows after = true
    · -- The item and what is before it, and then the rest of the list.
      have hsplit : rest = texts [.gap (rest.takeWhile Cell.isGap), p] ++ after := by
        simp only [texts_cons, texts_nil, Piece.text_gap, List.append_nil, List.append_assoc]
        rw [← (item?_append hi).2, hgap]
      have hlen : before.length +
          (texts (.gap (rest.takeWhile Cell.isGap) :: p :: (listPieces after).1)).length =
          (before ++ texts [.gap (rest.takeWhile Cell.isGap), p]).length +
            (texts (listPieces after).1).length := by
        simp only [texts_cons, texts_nil, List.length_append, List.length_nil]
        omega
      rw [if_pos hc, hlen] at hl
      rw [if_pos hc, hlen]
      have hlt : after.length < rest.length :=
        ((item?_leaves hi).of_suffix (List.dropWhile_suffix _)).length_lt
      obtain ⟨pl, hpl⟩ := hitem (hl.mono (Nat.le_refl _) (by simp))
      obtain ⟨ql, hql⟩ := ih after.length hlt (by rw [List.append_assoc, ← hsplit, ht])
        (hl.mono (by simp) (Nat.le_refl _)) rfl
      rw [← List.length_append] at hpl
      exact ⟨pl ++ ql, hpl.append hql⟩
    · rw [if_neg hc] at hl ⊢
      exact hitem hl

/-! ## The whole scan -/

/-- What a step of the scan asks for is at places in a row. -/
theorem exists_placed_read (h : Reaches t before rest)
    (hr : read? (faces before).reverse rest = some (ps, after)) :
    ∃ pl, Placed t before.length (before.length + (texts ps).length) ps pl := by
  have hread : Reads t before ps := ⟨rest, after, h, hr⟩
  obtain ⟨hs, ⟨text, c, hsplit, hcall, rfl⟩ | ⟨-, ⟨keyword, rfl⟩ | ⟨keyword, list, hsplit, rfl⟩⟩⟩ :=
    read?_forms hr
  · let o : Occurrence t := ⟨before, text, after, c, hsplit ▸ h.append, hs, hcall⟩
    have hstop : before.length + (texts [.call text c (isRequested (faces before).reverse
        after)]).length = o.stop := by simp [Occurrence.stop, o]
    rw [hstop]
    have hle : before.length ≤ o.stop := Nat.le_add_right _ _
    rcases hreq : isRequested (faces before).reverse after with _ | _
    · exact ⟨[], .of_none hle rfl rfl rfl⟩
    · have hfree : o.Free := fun b qs hb hlt => hb.length_le h hlt
      exact ⟨[.call o (o.isRequested_iff.1 hreq) hfree], .single rfl rfl hle rfl rfl rfl⟩
  · exact ⟨[], .of_none (Nat.le_add_right _ _) rfl rfl rfl⟩
  · have hlen : before.length + (texts (.keyword keyword true :: (listPieces list).1)).length =
        (before ++ keyword).length + (texts (listPieces list).1).length := by
      simp only [texts_cons, Piece.text_keyword, List.length_append]
      omega
    have hlisted : Listed t (before ++ keyword).length
        ((before ++ keyword).length + (texts (listPieces list).1).length) :=
      ⟨before, keyword, (listPieces list).1, hread, by simp, by simp⟩
    have ht : before ++ keyword ++ list = t := by
      rw [List.append_assoc, ← hsplit, h.append]
    obtain ⟨pl, hpl⟩ := exists_placed_list ht hlisted
    have hkeyword : Placed t before.length (before ++ keyword).length [.keyword keyword true] [] :=
      .of_none (by simp) rfl rfl rfl
    rw [hlen]
    exact ⟨[] ++ pl, hkeyword.append hpl⟩

/-- From each place on, what the scan asks for is at places in a row. -/
theorem exists_placed (h : Reaches t before rest) :
    ∃ pl, Placed t before.length t.length (piecesFrom (faces before).reverse rest) pl := by
  induction hn : rest.length using Nat.strong_induction_on generalizing before rest with
  | _ n ih =>
    subst hn
    have hlen : before.length ≤ t.length := by
      rw [← h.append, List.length_append]
      exact Nat.le_add_right _ _
    cases rest with
    | nil =>
      rw [piecesFrom]
      exact ⟨[], .of_none hlen rfl rfl rfl⟩
    | cons x u =>
      rcases hr : read? (faces before).reverse (x :: u) with _ | ⟨ps, after⟩
      · obtain ⟨pl, hpl⟩ := ih u.length (Nat.lt_succ_self _) (h.pass hr) rfl
        have hother : Placed t before.length (before ++ [x]).length [.other x] [] :=
          .of_none (by simp) rfl rfl rfl
        rw [faces_append, List.reverse_append] at hpl
        rw [piecesFrom_of_none hr]
        exact ⟨[] ++ pl, hother.append hpl⟩
      · obtain ⟨pl, hpl⟩ := exists_placed_read h hr
        obtain ⟨ql, hql⟩ := ih after.length (read?_leaves hr).length_lt (h.read hr) rfl
        rw [faces_append, List.reverse_append] at hql
        rw [← List.length_append] at hpl
        rw [piecesFrom_of_read? hr]
        exact ⟨pl ++ ql, hpl.append hql⟩

end

/-! ## The names of fields -/

/-- Whether a name neither starts nor ends with white space and holds no back quote. -/
structure IsTidy (name : String) : Prop where
  head : ∀ c ∈ name.toList.head?, isBlank c = false
  last : ∀ c ∈ name.toList.getLast?, isBlank c = false
  unticked : backQuote ∉ name.toList

theorem isTidy_fieldName (raw : String) : IsTidy (fieldName raw) := by
  have htrim := trim_fieldNameChars raw.toList
  refine ⟨fun c hc => ?_, fun c hc => ?_, ?_⟩
  · rw [fieldName, String.toList_ofList, ← htrim] at hc
    exact head_trim _ c hc
  · rw [fieldName, String.toList_ofList, ← htrim] at hc
    exact last_trim _ c hc
  · rw [fieldName, String.toList_ofList]
    exact backQuote_notMem_fieldNameChars raw.toList

end QueryStats.Query

namespace QueryStats

open Query

/-- The clause of a query is made up of what stands at places in a row. -/
theorem exists_placed_scanned (query : String) : ∃ pl : List (Place (scanned query)),
    Placed (scanned query) 0 (scanned query).length (pieces (scanned query)) pl ∧
      Clause.ofQuery query =
        { aggregations := (pl.filterMap Place.call?).map Occurrence.aggregation
          grouping :=
            { fields := (pl.filterMap Place.field?).map FieldPlace.name
              bucket := (pl.filterMap Place.bucket?).getLast?.map (·.bucketing.bucket) } } := by
  obtain ⟨pl, hpl⟩ := exists_placed (Reaches.start (t := scanned query))
  have hs : CommentFree (stripComments query).toList := by
    rw [stripComments, String.toList_ofList]
    exact commentFree_stripFrom query.toList
  have hclause : Clause.ofQuery query = Clause.ofPieces (pieces (scanned query)) := by
    rw [scanned, stripComments, String.toList_ofList]
    rfl
  have hcalls : ((pieces (scanned query)).filterMap Piece.requested?).map Call.aggregation =
      (pl.filterMap Place.call?).map Occurrence.aggregation := by
    have := congrArg (List.map Call.aggregation) hpl.calls
    rw [List.map_map] at this
    exact this.symm.trans (List.map_congr_left fun o _ => o.aggregation_call hs)
  have hbuckets : ((pieces (scanned query)).filterMap Piece.bucketing?).getLast?.map
      Bucketing.bucket = (pl.filterMap Place.bucket?).getLast?.map (·.bucketing.bucket) := by
    have := congrArg (fun bs => bs.getLast?.map Bucketing.bucket) hpl.buckets
    rw [List.getLast?_map, Option.map_map] at this
    exact this.symm
  refine ⟨pl, hpl, ?_⟩
  rw [hclause, Clause.ofPieces, hcalls, hbuckets]
  exact congrArg (fun fields => Clause.mk _ ⟨fields, _⟩) hpl.fields.symm

/-- The fields that a query groups by stand, in order and apart, at tokens of its lists that no
parenthesis follows; each name is that of its token, is not empty, and has neither white space
around it nor a back quote in it; and no field stands in a call that the query asks for or in a time
bucket. -/
theorem ofQuery_fields (query : String) :
    ∃ (fields : List (FieldPlace (scanned query))) (calls : List (Occurrence (scanned query)))
      (buckets : List (BucketPlace (scanned query))),
      Clause.ofQuery query =
        { aggregations := calls.map Occurrence.aggregation
          grouping :=
            { fields := fields.map FieldPlace.name
              bucket := buckets.getLast?.map (·.bucketing.bucket) } } ∧
      fields.Pairwise (fun a b => a.start < b.start ∧ a.stop ≤ b.start) ∧
      (∀ f ∈ fields, f.name ≠ "" ∧ IsTidy f.name) ∧
      (∀ o ∈ calls, o.Requested ∧ o.Free) ∧
      ∀ f ∈ fields, (∀ o ∈ calls, f.stop ≤ o.start ∨ o.stop ≤ f.start) ∧
        ∀ b ∈ buckets, f.stop ≤ b.start ∨ b.stop ≤ f.start := by
  obtain ⟨pl, hpl, hclause⟩ := exists_placed_scanned query
  refine ⟨_, _, _, hclause, hpl.fields_pairwise, fun f _ => ⟨f.named, isTidy_fieldName _⟩,
    fun o ho => ?_, fun f hf => ⟨fun o ho => ?_, fun b hb => ?_⟩⟩
  · obtain ⟨hrequested, hfree, -⟩ := Place.mem_of_mem_calls ho
    exact ⟨hrequested, hfree⟩
  · obtain ⟨hrequested, hfree, hm⟩ := Place.mem_of_mem_calls ho
    exact hpl.apart (Place.mem_of_mem_fields hf) hm nofun
  · exact hpl.apart (Place.mem_of_mem_fields hf) (Place.mem_of_mem_buckets hb) nofun

end QueryStats
