import QueryStats.Proofs.Abreast

/-!
# Alike texts have alike clauses

Two texts that differ as a likeness allows are read into clauses that do
(`Clause.alike_ofChars`).  Two runs of the scan are followed place by place: what is read at a place
is alike (`rel_read?`), a bare `BY` groups in both or in neither, and where nothing is read both
pass over one cell, or over two runs of white space.
-/

namespace QueryStats

open Query Query.Likeness Text

/-! ## Alike clauses -/

/-- Whether two texts stand for each other character by character. -/
def Query.Likeness.Words (L : Likeness) (s t : String) : Prop :=
  List.Forall₂ L.char s.toList t.toList

/-- Whether two aggregations differ as a likeness allows. -/
structure Aggregation.Alike (L : Likeness) (a b : Aggregation) : Prop where
  name : L.Words a.name b.name
  argument : L.text.InStep none a.argument.toList b.argument.toList
  percentile : a.percentile = b.percentile
  label : L.Words a.label b.label

/-- Whether two time buckets differ as a likeness allows. -/
structure Bucket.Alike (L : Likeness) (a b : Bucket) : Prop where
  field : L.Words a.field b.field
  amount : L.Words a.amount b.amount
  unit : L.Words a.unit b.unit
  kind : a.kind = b.kind
  label : L.Words a.label b.label

/-- Whether two clauses differ as a likeness allows. -/
structure Clause.Alike (L : Likeness) (c d : Clause) : Prop where
  aggregations : List.Forall₂ (Aggregation.Alike L) c.aggregations d.aggregations
  fields : List.Forall₂ L.Words c.grouping.fields d.grouping.fields
  bucket : Option.Rel (Bucket.Alike L) c.grouping.bucket d.grouping.bucket

section

variable {L : Likeness}

theorem Clause.alike_nothing : Clause.Alike L (.ofAggregations []) (.ofAggregations []) :=
  ⟨.nil, .nil, .none⟩

theorem Clause.Alike.andThen {c d c' d' : Clause} (h : Clause.Alike L c d)
    (h' : Clause.Alike L c' d') : Clause.Alike L (c.andThen c') (d.andThen d') where
  aggregations := List.rel_append h.aggregations h'.aggregations
  fields := List.rel_append h.fields h'.fields
  bucket := rel_or h'.bucket h.bucket

theorem Clause.ofPieces_cons (p : Piece) (ps : List Piece) :
    ofPieces (p :: ps) = (ofPieces [p]).andThen (ofPieces ps) := ofPieces_append [p] ps

theorem words_ofList {s t : List Char} :
    L.Words (.ofList s) (.ofList t) ↔ List.Forall₂ L.char s t := by
  rw [Likeness.Words, String.toList_ofList, String.toList_ofList]

theorem words_sourceText {s t : List Cell} (h : List.Forall₂ L.char (sources s) (sources t)) :
    L.Words (sourceText s) (sourceText t) := words_ofList.2 h

theorem words_labelName {a b : Option (List Cell)} (h : L.Labels a b) :
    L.Words (labelName a) (labelName b) := by
  cases h with
  | none => exact .nil
  | some hab => exact words_ofList.2 (forall₂_unquoteChars hab)

theorem Query.Likeness.Calls.aggregation {c d : Call} (h : L.Calls c d) :
    Aggregation.Alike L c.aggregation d.aggregation where
  name := words_sourceText h.name
  argument := by
    rw [Call.aggregation, Call.aggregation, String.toList_ofList, String.toList_ofList]
    exact inStep_trim (inStep_sources h.argument)
  percentile := rfl
  label := words_labelName h.label

theorem Query.Likeness.Bucketings.bucket {b c : Bucketing} (h : L.Bucketings b c) :
    Bucket.Alike L b.bucket c.bucket where
  field := words_ofList.2 (forall₂_fieldNameChars h.field)
  amount := words_sourceText h.amount
  unit := words_sourceText h.unit
  kind := rfl
  label := words_labelName h.label

theorem rel_groupField? {s t : List Cell} (h : List.Forall₂ L.char (sources s) (sources t)) :
    Option.Rel L.Words (groupField? s) (groupField? t) := by
  have hname := forall₂_fieldNameChars h
  rw [groupField?, groupField?]
  generalize fieldNameChars (sources s) = n at hname
  generalize fieldNameChars (sources t) = m at hname
  cases hname with
  | nil => exact .none
  | cons hcd hnm => exact .some (words_ofList.2 (.cons hcd hnm))

/-! ## Alike pieces -/

theorem alike_call {c d : Call} (h : L.Calls c d) (s t : List Cell) (requested : Bool) :
    Clause.Alike L (.ofPieces [.call s c requested]) (.ofPieces [.call t d requested]) := by
  cases requested with
  | false => exact Clause.alike_nothing
  | true => exact ⟨.cons h.aggregation .nil, .nil, .none⟩

theorem alike_bucketing {b c : Bucketing} (h : L.Bucketings b c) (s t : List Cell) :
    Clause.Alike L (.ofPieces [.bucketing s b]) (.ofPieces [.bucketing t c]) :=
  ⟨.nil, .nil, .some h.bucket⟩

theorem alike_field {s t : List Cell} (h : List.Forall₂ L.char (sources s) (sources t)) :
    Clause.Alike L (.ofPieces [.field s]) (.ofPieces [.field t]) :=
  ⟨.nil, List.rel_filterMap (R := fun s t => List.Forall₂ L.char (sources s) (sources t))
    (fun _ _ h => rel_groupField? h) (.cons h .nil), .none⟩

theorem Clause.Alike.cons {p p' : Piece} {ps ps' : List Piece}
    (h : Clause.Alike L (.ofPieces [p]) (.ofPieces [p']))
    (hs : Clause.Alike L (.ofPieces ps) (.ofPieces ps')) :
    Clause.Alike L (.ofPieces (p :: ps)) (.ofPieces (p' :: ps')) := by
  rw [Clause.ofPieces_cons, Clause.ofPieces_cons p']
  exact h.andThen hs

/-! ## Lists -/

variable {t t' : List Cell}

theorem rel_item? (h : L.masked.InStep none t t') :
    Option.Rel (fun a b => Clause.Alike L (.ofPieces [a.1]) (.ofPieces [b.1]) ∧
      ∃ r, L.masked.Cut none t t' r a.2 b.2) (item? t) (item? t') := by
  have hbucketing := rel_bucketing? h
  rw [item?, item?]
  generalize bucketing? t = a at hbucketing
  generalize bucketing? t' = b at hbucketing
  cases hbucketing with
  | some hab => exact .some ⟨alike_bucketing hab.1 _ _, none, hab.2⟩
  | none =>
    refine rel_map (rel_field? h) ?_
    rintro ⟨name, rest⟩ ⟨name', rest'⟩ ⟨r, hreads⟩
    refine ⟨?_, r, hreads.left⟩
    simp only [opensParenthesis_congr hreads.left.after]
    split
    · exact Clause.alike_nothing
    · exact alike_field hreads.spelled

theorem cut_gap (h : L.masked.InStep none t t') :
    L.masked.Cut none t t' none (t.dropWhile Cell.isGap) (t'.dropWhile Cell.isGap) := by
  refine h.cut_dropWhile_self (blind_masked coarse_isGap) fun x hx => ?_
  exact nextQuote_none_of_not_quote (isQuote_of_isGap hx)

theorem alike_listPieces (h : L.masked.InStep none t t') :
    Clause.Alike L (.ofPieces (listPieces t).1) (.ofPieces (listPieces t').1) ∧
      ∃ r, L.masked.Cut none t t' r (listPieces t).2 (listPieces t').2 := by
  induction hn : t.length using Nat.strong_induction_on generalizing t t' with
  | _ n ih =>
    subst hn
    have hgap := cut_gap h
    rcases rel_cases (rel_item? hgap.after) with
      ⟨hi, hi'⟩ | ⟨⟨p, rest⟩, ⟨p', rest'⟩, ⟨hi, hi'⟩, hp, r, hr⟩
    · rw [listPieces_of_none hi, listPieces_of_none hi']
      exact ⟨Clause.alike_nothing, none, hgap⟩
    · have hcut := hgap.trans hr
      have hlt : rest.length < t.length :=
        ((item?_leaves hi).of_suffix (List.dropWhile_suffix _)).length_lt
      rw [listPieces_of_some hi, listPieces_of_some hi', ← commaFollows_congr hr.after]
      by_cases hc : commaFollows rest = true
      · -- A comma that shows stands outside quoted runs, so the list goes on there.
        obtain rfl : r = none := by
          cases r with
          | none => rfl
          | some q => rw [commaFollows_of_open hr.after] at hc; cases hc
        obtain ⟨hlist, v, hv⟩ := ih rest.length hlt hcut.after rfl
        rw [if_pos hc, if_pos hc]
        exact ⟨hp.cons hlist, v, hcut.trans hv⟩
      · rw [if_neg hc, if_neg hc]
        exact ⟨hp, r, hcut⟩

/-! ## The scan -/

theorem rel_read? {x : Unit} {seen seen' : List Char} (hs : look.InStep x seen seen')
    (h : L.masked.InStep none t t') :
    Option.Rel (fun a b => Clause.Alike L (.ofPieces a.1) (.ofPieces b.1) ∧
      ∃ r, L.masked.Cut none t t' r a.2 b.2) (read? seen t) (read? seen' t') := by
  rw [read?, read?, startsWord_congr hs]
  split
  · exact .none
  have hcall := rel_call? h
  generalize call? t = a at hcall
  generalize call? t' = b at hcall
  cases hcall with
  | @some a b hab =>
    obtain ⟨c, rest⟩ := a
    obtain ⟨d, rest'⟩ := b
    simp only [isRequested_congr hs hab.2.after]
    exact .some ⟨alike_call hab.1 _ _ _, none, hab.2⟩
  | none =>
    refine rel_map (rel_groupingKeyword? hs h) ?_
    rintro ⟨opens, rest⟩ ⟨opens', rest'⟩ ⟨hopens, hcut⟩
    obtain rfl : opens = opens' := hopens
    cases opens with
    | false => exact ⟨Clause.alike_nothing, none, hcut⟩
    | true =>
      obtain ⟨hlist, r, hrest⟩ := alike_listPieces hcut.after
      exact ⟨hlist, r, hcut.trans hrest⟩

theorem isNameStart_of_open {q : Char} {x y : Cell} (h : L.Cells (some q) x y) :
    isNameStart x.face = false ∧ isNameStart y.face = false := by
  have hx : isNameStart x.face = false := by
    obtain ⟨hq, hf | hf⟩ := h.face_of_open
    · apply isNameStart_eq_false
      rw [← Bool.not_eq_true]
      intro ha
      rw [hf] at ha
      rw [isQuote_of_isAliasChar ha] at hq
      cases hq
    · rw [hf]
      rfl
  exact ⟨hx, by rw [← sharp_isNameStart.caseless.congr h.toLower_eq, hx]⟩

theorem dull_shown {s : List Char} (hs : IsSpace s) :
    ∀ x ∈ shown s, isNameStart x.face = false := by
  intro x hx
  obtain ⟨c, hc, rfl⟩ := List.mem_map.1 hx
  exact sharp_isNameStart.blank c (hs.2 c hc)

/-- What two runs of the scan find from two places in step is alike.  The induction is on what is
left of the first text, since the scan goes on behind all that it reads. -/
theorem alike_clauseFrom {q : Option Char} {seen seen' : List Char}
    (hs : look.InStep () seen seen') (h : L.masked.InStep q t t') :
    Clause.Alike L (clauseFrom seen t) (clauseFrom seen' t') := by
  induction hn : t.length using Nat.strong_induction_on generalizing q seen seen' t t' with
  | _ n ih =>
    subst hn
    cases h with
    | nil q =>
      rw [clauseFrom_nil, clauseFrom_nil]
      exact Clause.alike_nothing
    | @run _ a b u u' h hr =>
      obtain ⟨⟨-, rfl⟩, v, w, ⟨hv, hw⟩, rfl, rfl⟩ := id h
      rw [clauseFrom_append_of_dull (dull_shown hv), clauseFrom_append_of_dull (dull_shown hw),
        faces_shown, faces_shown]
      refine ih u.length ?_ (.run ⟨hv.reverse, hw.reverse⟩ hs) hr rfl
      have := List.length_pos_iff.2 (L.masked.ne_nil h).1
      rw [List.length_append]
      omega
    | @one _ x y u u' h hr =>
      have hxy : L.Cells q x y := h
      -- Where nothing is read the two runs go on with the next cell.
      have hpass :
          Clause.Alike L (clauseFrom (x.face :: seen) u) (clauseFrom (y.face :: seen') u') :=
        ih u.length (Nat.lt_succ_self _) (.one hxy.toLower_eq hs) hr rfl
      cases q with
      | some q =>
        obtain ⟨hx, hy⟩ := isNameStart_of_open hxy
        rw [clauseFrom_of_quiet fun _ => quiet_of_dull hx seen u,
          clauseFrom_of_quiet fun _ => quiet_of_dull hy seen' u']
        exact hpass
      | none =>
        rcases rel_cases (rel_read? hs (.one h hr)) with
          ⟨hn, hn'⟩ | ⟨⟨ps, rest⟩, ⟨ps', rest'⟩, ⟨hp, hp'⟩, hps, r, hcut⟩
        · rw [clauseFrom_of_none hn, clauseFrom_of_none hn']
          exact hpass
        · rw [clauseFrom_of_read? hp, clauseFrom_of_read? hp']
          refine hps.andThen (ih rest.length (read?_leaves hp).length_lt ?_ hcut.after rfl)
          rw [(read?_append hp).2, (read?_append hp').2] at hcut
          exact (inStep_reverse (inStep_faces hcut.inStep)).append hs

/-- Two texts that differ as a likeness allows have clauses that do. -/
theorem Clause.alike_ofChars {s t : List Char} (h : L.text.InStep none s t) :
    Clause.Alike L (.ofChars s) (.ofChars t) :=
  alike_clauseFrom (.nil ()) (inStep_mask namesQuote_none h)

end

end QueryStats
