import QueryStats.Proofs.Alike

/-!
# Letter case

Two queries that differ only in the case of their ASCII letters have clauses that do
(`ofQuery_eqButCase`): as many aggregations and fields, and a time bucket in both or in neither.
Stripping does not tell the case of a letter (`stripFrom_map_toLower`), and neither does the scan.
-/

namespace QueryStats

open Query Text

/-! ## Stripping -/

namespace Query

/-- Two characters in lower case open or close a comment only if they did before. -/
theorem ne_cons_of_map_toLower {c e f : Char} (he : isLetter e = false) (hf : isLetter f = false)
    {t : List Char} (h : ∀ u, c = e → t = f :: u → False) :
    ∀ u, c.toLower = e → t.map Char.toLower = f :: u → False := by
  intro u hc ht
  obtain ⟨d, v, rfl, hd, -⟩ := List.map_eq_cons_iff.1 ht
  exact h v ((toLower_eq_iff he).1 hc) (by rw [(toLower_eq_iff hf).1 hd])

theorem stripFrom_map_toLower {r : Region} (hr : NamesQuote r.quote?) (t : List Char) :
    stripFrom r (t.map Char.toLower) = (stripFrom r t).map Char.toLower := by
  have hdash : Char.toLower '-' = '-' := by decide
  have hslash : Char.toLower '/' = '/' := by decide
  have hstar : Char.toLower '*' = '*' := by decide
  have hblank : Char.toLower ' ' = ' ' := by decide
  fun_induction regionAfter r t with
  | case1 r => cases r <;> simp [stripFrom]
  | case2 t ih =>
    simp [stripFrom, hdash, hblank, ih namesQuote_none]
  | case3 t ih =>
    simp [stripFrom, hslash, hstar, hblank, ih namesQuote_none]
  | case4 c t hd hs ih =>
    have hregion : (if isQuote c.toLower then Region.quoted c.toLower else .code) =
        if isQuote c then Region.quoted c else .code := by
      have hquote : isQuote c.toLower = isQuote c := caseless_of_table (by decide) c
      rw [hquote]
      split
      · next hc => rw [(toLower_eq_iff (isLetter_of_isQuote hc)).2 rfl]
      · rfl
    rw [Region.quote?_if_isQuote] at ih
    rw [List.map_cons, stripFrom, stripFrom, hregion, ih (namesQuote_none.next c), List.map_cons]
    · exact hd
    · exact hs
    · exact ne_cons_of_map_toLower (by decide) (by decide) hd
    · exact ne_cons_of_map_toLower (by decide) (by decide) hs
  | case5 q c t ih =>
    rw [Region.quote?_if_eq] at ih
    have hiff := toLower_eq_iff (c := c) (isLetter_of_isQuote hr.isQuote)
    rw [List.map_cons, stripFrom, stripFrom, List.map_cons]
    simp only [hiff, ih (hr.next c)]
  | case6 c t ih =>
    have hiff : c.toLower = '\n' ↔ c = '\n' := toLower_eq_iff (by decide)
    by_cases hc : c = '\n'
    · rw [if_pos hc] at ih
      simp [stripFrom, hc, ih namesQuote_none]
    · rw [if_neg hc] at ih
      simp [stripFrom, hiff, hc, ih namesQuote_none]
  | case7 depth t ih =>
    simp [stripFrom, hslash, hstar, ih namesQuote_none]
  | case8 depth t ih =>
    cases depth with
    | zero => simp [stripFrom, hslash, hstar, ih namesQuote_none]
    | succ depth => simp [stripFrom, hslash, hstar, ih namesQuote_none]
  | case9 depth c t hd hs ih =>
    have hline : c.toLower = '\n' ↔ c = '\n' := toLower_eq_iff (by decide)
    have hreturn : c.toLower = '\r' ↔ c = '\r' := toLower_eq_iff (by decide)
    rw [List.map_cons, stripFrom, stripFrom]
    · simp only [hline, hreturn, ih namesQuote_none]
      split <;> rfl
    · exact hd
    · exact hs
    · exact ne_cons_of_map_toLower (by decide) (by decide) hd
    · exact ne_cons_of_map_toLower (by decide) (by decide) hs

/-! ## The likeness -/

/-- Texts may differ in the case of ASCII letters. -/
def Likeness.letterCase : Likeness where
  char c d := c.toLower = d.toLower
  layout := False
  refl _ := rfl
  toLower_eq := id

theorem eqIgnoreCase_iff {s t : List Char} :
    eqIgnoreCase s t = true ↔ List.Forall₂ Likeness.letterCase.char s t := by
  rw [eqIgnoreCase, beq_iff_eq, ← List.forall₂_eq_eq_eq, List.forall₂_map_left_iff,
    List.forall₂_map_right_iff]
  rfl

theorem inStep_letterCase_iff {q : Option Char} {s t : List Char} :
    Likeness.letterCase.text.InStep q s t ↔ eqIgnoreCase s t = true := by
  rw [eqIgnoreCase_iff]
  constructor
  · intro h
    induction h with
    | nil => exact .nil
    | one h _ ih => exact .cons h ih
    | run h => exact absurd h.1.1 id
  · intro h
    induction h generalizing q with
    | nil => exact .nil q
    | cons h _ ih => exact .one h ih

end Query

/-! ## Queries -/

/-- Whether two texts are equal up to the case of their ASCII letters. -/
def EqButCase (s t : String) : Prop := eqIgnoreCase s.toList t.toList = true

instance (s t : String) : Decidable (EqButCase s t) := inferInstanceAs (Decidable (_ = true))

/-- Whether two aggregations are equal up to the case of letters. -/
structure Aggregation.EqButCase (a b : Aggregation) : Prop where
  name : QueryStats.EqButCase a.name b.name
  argument : QueryStats.EqButCase a.argument b.argument
  percentile : a.percentile = b.percentile
  label : QueryStats.EqButCase a.label b.label

/-- Whether two time buckets are equal up to the case of letters. -/
structure Bucket.EqButCase (a b : Bucket) : Prop where
  field : QueryStats.EqButCase a.field b.field
  amount : QueryStats.EqButCase a.amount b.amount
  unit : QueryStats.EqButCase a.unit b.unit
  kind : a.kind = b.kind
  label : QueryStats.EqButCase a.label b.label

/-- Whether two clauses are equal up to the case of letters: they have as many aggregations and
fields, and both or neither has a time bucket. -/
structure Clause.EqButCase (c d : Clause) : Prop where
  aggregations : List.Forall₂ Aggregation.EqButCase c.aggregations d.aggregations
  fields : List.Forall₂ QueryStats.EqButCase c.grouping.fields d.grouping.fields
  bucket : Option.Rel Bucket.EqButCase c.grouping.bucket d.grouping.bucket

theorem eqButCase_of_words {s t : String} (h : Likeness.letterCase.Words s t) : EqButCase s t :=
  eqIgnoreCase_iff.2 h

theorem Aggregation.Alike.eqButCase {a b : Aggregation} (h : a.Alike .letterCase b) :
    a.EqButCase b where
  name := eqButCase_of_words h.name
  argument := inStep_letterCase_iff.1 h.argument
  percentile := h.percentile
  label := eqButCase_of_words h.label

theorem Bucket.Alike.eqButCase {a b : Bucket} (h : Bucket.Alike .letterCase a b) :
    a.EqButCase b where
  field := eqButCase_of_words h.field
  amount := eqButCase_of_words h.amount
  unit := eqButCase_of_words h.unit
  kind := h.kind
  label := eqButCase_of_words h.label

/-- Letter case never matters to the structure: queries that differ only in the case of letters have
clauses that do. -/
theorem ofQuery_eqButCase {query query' : String} (h : EqButCase query query') :
    (Clause.ofQuery query).EqButCase (Clause.ofQuery query') := by
  have hcode : NamesQuote Region.code.quote? := namesQuote_none
  have hstrip : eqIgnoreCase (stripFrom .code query.toList) (stripFrom .code query'.toList) =
      true := by
    rw [EqButCase, eqIgnoreCase, beq_iff_eq] at h
    rw [eqIgnoreCase, beq_iff_eq, ← stripFrom_map_toLower hcode, h, stripFrom_map_toLower hcode]
  have halike : Clause.Alike .letterCase (.ofQuery query) (.ofQuery query') :=
    Clause.alike_ofChars (inStep_letterCase_iff.2 hstrip)
  exact ⟨halike.aggregations.imp fun _ _ h => h.eqButCase,
    halike.fields.imp fun _ _ h => eqButCase_of_words h,
    rel_imp (fun _ _ h => h.eqButCase) halike.bucket⟩

/-- Keywords, names, a quoted label, a comment and the unit of a time bucket in two mixes of
cases. -/
theorem ofQuery_eqButCase_mixed :
    EqButCase "Select Avg(Load) aS \x22Mean Load\x22 From t /* By Rack */ gRoup bY Span(Ts, 1H), Dc"
        "SELECT avg(load) As \x22mean LOAD\x22 from T /* BY rack */ Group By sPAN(ts, 1h), DC" ∧
      (Clause.ofQuery
        "Select Avg(Load) aS \x22Mean Load\x22 From t /* By Rack */ gRoup bY Span(Ts, 1H), Dc"
        ).EqButCase (.ofQuery
        "SELECT avg(load) As \x22mean LOAD\x22 from T /* BY rack */ Group By sPAN(ts, 1h), DC") :=
  ⟨by decide, ofQuery_eqButCase (by decide)⟩

end QueryStats
