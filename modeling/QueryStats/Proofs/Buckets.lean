import QueryStats.Proofs.Places

/-!
# The time bucket of a query

A time bucket that a query groups by is read from a text of its form in a list, and each of its
parts is what that text says (`ofQuery_bucket`).  The amount and the unit are never empty.  The
field is empty just where it is written as two quotes with nothing but white space and back quotes
between (`IsHollow`); a plain field so written is dropped, but a time bucket is kept
(`not_bucket_field_ne_empty`).
-/

namespace QueryStats.Query

open Text Written

/-! ## What a field token spells -/

/-- What stands between two quotes spells itself without its back quotes. -/
theorem fieldNameChars_between {q : Char} (hq : q = backQuote ∨ q = doubleQuote)
    (body : List Char) :
    fieldNameChars (q :: (body ++ [q])) = trim (body.filter (· != backQuote)) := by
  rw [fieldNameChars, trim_quoted (isQuote_of_eq hq)]
  rcases hq with rfl | rfl
  · rw [peel?_of_head (by simp [backQuote, doubleQuote]), Option.getD_none]
    simp
  · rw [peel?_quoted, Option.getD_some]

/-- Bare characters spell themselves. -/
theorem fieldNameChars_bare {w : List Char} (h : ∀ c ∈ w, isFieldChar c = true) :
    fieldNameChars w = w := by
  have hblank : ∀ c ∈ w, isBlank c = false := fun c hc => isBlank_of_isFieldChar (h c hc)
  have htrim : trim w = w := trim_of_ends (fun c hc => hblank c (List.mem_of_mem_head? hc))
    fun c hc => hblank c (List.mem_of_mem_getLast? hc)
  have hquote {q : Char} (hq : isFieldChar q = false) : q ∉ w := by
    intro hm
    rw [h q hm] at hq
    cases hq
  have hpeel : peel? doubleQuote w = none :=
    peel?_of_head fun hm => hquote (by decide) (List.mem_of_mem_head? hm)
  rw [fieldNameChars, htrim, hpeel, Option.getD_none,
    filter_backQuote_of_notMem (hquote (by decide)), htrim]

/-- Whether a field as written spells no name: it stands between two quotes, and what is between
them is white space and back quotes. -/
def IsHollow (text : List Cell) : Prop :=
  ∃ q body, (q = backQuote ∨ q = doubleQuote) ∧ sources text = q :: (body ++ [q]) ∧
    ∀ c ∈ body, isBlank c = true ∨ c = backQuote

theorem fieldNameChars_between_eq_nil_iff {q : Char} (hq : q = backQuote ∨ q = doubleQuote)
    {body : List Char} : fieldNameChars (q :: (body ++ [q])) = [] ↔
      ∀ c ∈ body, isBlank c = true ∨ c = backQuote := by
  rw [fieldNameChars_between hq, trim_eq_nil_iff]
  refine forall_congr' fun c => ?_
  rw [List.mem_filter, bne_iff_ne]
  tauto

/-- A cell that shows something stands for what it shows. -/
theorem eq_plain_of_mem_maskFrom {q : Option Char} {t : List Char} {x : Cell}
    (hx : x ∈ maskFrom q t) (hne : x.face ≠ ' ') : x = .plain x.face := by
  induction t generalizing q with
  | nil => cases q <;> cases hx
  | cons c t ih =>
    cases q with
    | none =>
      rw [maskFrom_none_cons, List.mem_cons] at hx
      rcases hx with rfl | hx
      · rfl
      · exact ih hx
    | some q =>
      by_cases hc : c = q
      · subst hc
        rw [maskFrom_self_cons, List.mem_cons] at hx
        rcases hx with rfl | hx
        · rfl
        · exact ih hx
      · rw [maskFrom_hidden_cons hc, List.mem_append] at hx
        exact hx.elim (fun h => absurd (face_of_mem_hidden h) hne) ih

theorem sources_of_bare {s : List Char} {text : List Cell} (hm : ∀ x ∈ text, x ∈ mask s)
    (h : ∀ x ∈ text, isFieldChar x.face = true) : sources text = faces text := by
  have hplain : text = shown (faces text) := by
    rw [shown, faces, List.map_map]
    refine (List.map_id text).symm.trans (List.map_congr_left fun x hx => ?_)
    have hne : x.face ≠ ' ' := by
      intro hb
      have := h x hx
      rw [hb] at this
      cases this
    exact eq_plain_of_mem_maskFrom (hm x hx) hne
  rw [hplain, sources_shown, faces_shown]

namespace BucketPlace

variable {s : List Char} (p : BucketPlace (mask s))

theorem suffix : p.text ++ p.after <:+ mask s := ⟨p.before, p.split⟩

/-- A reader that comes to the place reads the time bucket. -/
theorem bucketing? : Query.bucketing? (p.text ++ p.after) = some (p.bucketing, p.after) :=
  bucketing?_of_isBucketing p.isBucketing

/-- The field stands outside quoted runs, and no bare character follows it. -/
theorem outside_field : ∃ rest, Outside s (p.bucketing.field ++ rest) ∧ Stops isFieldChar rest ∧
    IsFieldToken p.bucketing.field := by
  obtain ⟨span, clause, htext, ⟨word, g₁, opening, g₂, g₃, comma, g₄, g₅, g₆, closing, hspan, -, -,
    hopening, hg₂, hfield, hg₃, hcomma, -⟩, -⟩ := p.isBucketing
  have hsuffix := p.suffix
  rw [htext, hspan] at hsuffix
  simp only [List.append_assoc, List.cons_append, List.nil_append] at hsuffix
  have hopen := outside_cons ((List.suffix_append _ _).trans
    ((List.suffix_append _ _).trans hsuffix)) (by rw [hopening]; decide) (by rw [hopening]; decide)
  rw [← List.cons_append] at hopen
  have hout := (hopen.append (List.forall_mem_cons.2
    ⟨by rw [hopening]; decide, fun x hx => isQuote_of_isBlank (hg₂ x hx)⟩)).2
  exact ⟨_, hout, hg₃.stops (fun c hb => by simp [isFieldChar, hb])
    (stops_cons (by rw [hcomma]; decide) _), hfield⟩

/-- The field of a time bucket is a whole quoted run, or bare. -/
theorem field_captures :
    (∃ q body, (q = backQuote ∨ q = doubleQuote) ∧ q ∉ body ∧
      sources p.bucketing.field = q :: (body ++ [q])) ∨
    p.bucketing.field ≠ [] ∧ (∀ x ∈ p.bucketing.field, isFieldChar x.face = true) ∧
      ∀ x ∈ p.bucketing.field, x ∈ mask s := by
  obtain ⟨rest, hout, hstop, hfield⟩ := p.outside_field
  have hread : name? isFieldChar (p.bucketing.field ++ rest) = some (p.bucketing.field, rest) :=
    (name?_eq_some_iff (by decide) (by decide)).2 ⟨hfield.isName hstop, rfl⟩
  refine (hout.name? hread).imp_right fun hbare => ⟨(name?_append hread).1, hbare, fun x hx => ?_⟩
  exact hout.suffix.mem (List.mem_append_left rest hx)

/-- The field of a time bucket is empty just where its token is hollow. -/
theorem field_eq_empty_iff :
    p.bucketing.bucket.field = "" ↔ IsHollow p.bucketing.field := by
  have hname : p.bucketing.bucket.field = "" ↔ fieldNameChars (sources p.bucketing.field) = [] := by
    rw [Bucketing.bucket, String.ofList_eq_empty_iff]
  rw [hname]
  constructor
  · intro h
    rcases p.field_captures with ⟨q, body, hq, -, hs⟩ | ⟨hne, hbare, hm⟩
    · rw [hs, fieldNameChars_between_eq_nil_iff hq] at h
      exact ⟨q, body, hq, hs, h⟩
    · rw [sources_of_bare hm hbare, fieldNameChars_bare fun c hc => ?_] at h
      · exact absurd (List.map_eq_nil_iff.1 h) hne
      · obtain ⟨x, hx, rfl⟩ := List.mem_map.1 hc
        exact hbare x hx
  · rintro ⟨q, body, hq, hs, hbody⟩
    rw [hs, fieldNameChars_between_eq_nil_iff hq]
    exact hbody

end BucketPlace

end QueryStats.Query

namespace QueryStats

open Query Text Written

/-- Whether a time bucket of a clause is what a text says that stands in a list of the scanned text:
an amount, a unit, no kind, and the name of a field. -/
structure Bucket.ReadFrom (t : List Cell) (b : Bucket) : Prop where
  isAmount : IsAmount b.amount.toList
  unit_ne : b.unit ≠ ""
  isUnit : ∀ c ∈ b.unit.toList, isLetter c = true
  kind : b.kind = ""
  field : IsTidy b.field
  place : ∃ p : BucketPlace t, p.bucketing.bucket = b ∧
    faces p.bucketing.amount = b.amount.toList ∧ faces p.bucketing.unit = b.unit.toList ∧
    (b.field = "" ↔ IsHollow p.bucketing.field)

theorem Query.BucketPlace.readFrom {s : List Char} (p : BucketPlace (mask s)) :
    p.bucketing.bucket.ReadFrom (mask s) := by
  obtain ⟨⟨amount, hamount, ha⟩, ⟨unit, hunit, hne, hu⟩, -⟩ :=
    bucketing?_captures p.suffix p.bucketing?
  have hamountText : p.bucketing.bucket.amount = String.ofList amount := by
    show String.ofList (sources p.bucketing.amount) = _
    rw [hamount, sources_shown]
  have hunitText : p.bucketing.bucket.unit = String.ofList unit := by
    show String.ofList (sources p.bucketing.unit) = _
    rw [hunit, sources_shown]
  have hfield : p.bucketing.bucket.field = fieldName (sourceText p.bucketing.field) := by
    rw [fieldName, sourceText, String.toList_ofList]
    rfl
  refine ⟨?_, ?_, ?_, rfl, ?_, p, rfl, ?_, ?_, p.field_eq_empty_iff⟩
  · rwa [hamountText, String.toList_ofList]
  · rwa [hunitText, Ne, String.ofList_eq_empty_iff]
  · rwa [hunitText, String.toList_ofList]
  · rw [hfield]
    exact isTidy_fieldName _
  · rw [hamountText, String.toList_ofList, hamount, faces_shown]
  · rw [hunitText, String.toList_ofList, hunit, faces_shown]

/-- A time bucket that a query groups by is complete but for a hollow field: it is what a text of
its form says that stands in a list. -/
theorem ofQuery_bucket {query : String} {b : Bucket}
    (h : (Clause.ofQuery query).grouping.bucket = some b) : b.ReadFrom (scanned query) := by
  obtain ⟨pl, -, hclause⟩ := exists_placed_scanned query
  rw [hclause, Option.map_eq_some_iff] at h
  obtain ⟨p, -, rfl⟩ := h
  exact p.readFrom

/-- A time bucket by the hour. -/
theorem ofQuery_bucket_hourly :
    (Clause.ofQuery
      "SELECT count(*) FROM t GROUP BY host, SPAN(ts, 1.5h) AS hour").grouping.bucket =
        some ⟨"ts", "1.5", "h", "", "hour"⟩ ∧
      Bucket.ReadFrom (scanned "SELECT count(*) FROM t GROUP BY host, SPAN(ts, 1.5h) AS hour")
        ⟨"ts", "1.5", "h", "", "hour"⟩ := by
  have h : (Clause.ofQuery
      "SELECT count(*) FROM t GROUP BY host, SPAN(ts, 1.5h) AS hour").grouping.bucket =
        some ⟨"ts", "1.5", "h", "", "hour"⟩ := by decide +kernel
  exact ⟨h, ofQuery_bucket h⟩

/-- A time bucket is kept though its field is empty. -/
theorem not_bucket_field_ne_empty :
    ¬∀ (query : String) (b : Bucket), (Clause.ofQuery query).grouping.bucket = some b →
      b.field ≠ "" := by
  intro h
  exact h "SELECT count(*) FROM t GROUP BY SPAN(\x60\x60, 1h)" ⟨"", "1", "h", "", ""⟩
    (by decide +kernel) rfl

end QueryStats
