import QueryStats.Proofs.Capture
import QueryStats.Proofs.RoundTrip

/-!
# Writing out the clause of a query

Every clause that a query has can be written out as a query, names in quotes, and reads back as
itself.  What a scan captures is fit to be written: each aggregation, time bucket and field of the
clause comes from a `Written` one with the same text.
-/

namespace QueryStats

open Query

/-! ## The canonical text -/

/-- The clause that gives a name, in back quotes unless the name holds one. -/
def labelText (label : String) : List Char :=
  if label.isEmpty then []
  else
    let quote := if backQuote ∈ label.toList then doubleQuote else backQuote
    " AS ".toList ++ quote :: (label.toList ++ [quote])

/-- A field in back quotes. -/
def fieldText (field : String) : List Char := backQuote :: (field.toList ++ [backQuote])

/-- An aggregation as a call. -/
def Aggregation.callText (a : Aggregation) : List Char :=
  a.name.toList ++ '(' :: (a.argument.toList ++ ')' :: labelText a.label)

/-- A time bucket as it is written in a list. -/
def Bucket.spanText (b : Bucket) : List Char :=
  "SPAN(".toList ++ (fieldText b.field ++ ", ".toList ++ b.amount.toList ++ b.unit.toList ++
    ')' :: labelText b.label)

/-- The list of what groups the results. -/
def Grouping.listText (g : Grouping) : List Char :=
  Written.commaList (g.bucket.toList.map Bucket.spanText ++ g.fields.map fieldText)

/-- The query that a clause is written out as. -/
def Clause.canonical (c : Clause) : String :=
  String.ofList ("SELECT ".toList ++ (Written.commaList (c.aggregations.map Aggregation.callText) ++
    (" FROM t".toList ++
      if c.grouping.isEmpty then [] else " GROUP BY ".toList ++ c.grouping.listText)))

namespace Written

/-! ## What is captured can be written -/

/-- A label can be written as an alias in quotes. -/
theorem exists_alias {l : List Char} (h : IsLabel l) :
    ∃ label : Option Alias, labelOf label = String.ofList l ∧
      asClause label = labelText (String.ofList l) := by
  by_cases he : l = []
  · subst he
    exact ⟨none, rfl, rfl⟩
  · have hne : (String.ofList l).isEmpty = false := by simp [he]
    by_cases hb : backQuote ∈ l
    · have hd : doubleQuote ∉ l := h.quotable.resolve_left fun hn => hn hb
      refine ⟨some ⟨l, .doubleQuoted, h.trimmed, hd⟩, rfl, ?_⟩
      simp only [labelText, hne, String.toList_ofList, if_neg Bool.false_ne_true, if_pos hb]
      rfl
    · refine ⟨some ⟨l, .backQuoted, h.trimmed, hb⟩, rfl, ?_⟩
      simp only [labelText, hne, String.toList_ofList, if_neg Bool.false_ne_true, if_neg hb]
      rfl

/-- A captured call can be written. -/
theorem exists_call {s : List Char} (hs : CommentFree s) {t rest : List Cell} {c : Query.Call}
    (ht : t <:+ mask s) (h : call? t = some (c, rest)) :
    ∃ w : Call, w.aggregation = c.aggregation ∧ w.text = c.aggregation.callText := by
  obtain ⟨⟨name, hname, hstart, hn⟩, ⟨v, harg, hv⟩, l, hlabel, hl⟩ := call?_captures hs ht h
  obtain ⟨label, hl₁, hl₂⟩ := exists_alias hl
  have ha := hv.trim
  have hc : c.aggregation =
      ⟨String.ofList name, String.ofList (Text.trim v), "", String.ofList l⟩ := by
    rw [Query.Call.aggregation, sourceText, hname, sources_shown, harg, sources_mask, hlabel]
  refine ⟨⟨name, Text.trim v, label, hstart, hn, Text.trim_trim v, ha.balanced, ha.noParenthesis,
    ha.commentFree⟩, ?_, ?_⟩
  · rw [hc, Call.aggregation, hl₁]
  · simp only [hc, Call.text, Aggregation.callText, String.toList_ofList, hl₂]

/-- A text without back quotes that is trimmed can be written as a field in back quotes. -/
def quotedField (name : List Char) (ht : Text.trim name = name) (hb : backQuote ∉ name) : Field :=
  ⟨⟨name, .backQuoted, ht, hb⟩, hb⟩

/-- A captured time bucket can be written. -/
theorem exists_bucket {s : List Char} {t rest : List Cell} {b : Bucketing} (ht : t <:+ mask s)
    (h : bucketing? t = some (b, rest)) :
    ∃ w : Bucket, w.bucket = b.bucket ∧ w.text = b.bucket.spanText := by
  obtain ⟨⟨amount, hamount, ha⟩, ⟨unit, hunit, hne, hu⟩, l, hlabel, hl⟩ := bucketing?_captures ht h
  obtain ⟨label, hl₁, hl₂⟩ := exists_alias hl
  have hb : b.bucket = ⟨String.ofList (fieldNameChars (sources b.field)), String.ofList amount,
      String.ofList unit, "", String.ofList l⟩ := by
    rw [Bucketing.bucket, sourceText, sourceText, hamount, hunit, sources_shown, sources_shown,
      hlabel]
  refine ⟨⟨quotedField (fieldNameChars (sources b.field)) (trim_fieldNameChars _)
    (backQuote_notMem_fieldNameChars _), amount, unit, label, ha, hne, hu⟩, ?_, ?_⟩
  · rw [hb, Bucket.bucket, hl₁]
    rfl
  · simp only [hb, Bucket.text, Bucket.spanText, String.toList_ofList, hl₂, fieldText]
    rfl

/-- A captured field can be written. -/
theorem exists_field {cells : List Cell} {name : String} (h : groupField? cells = some name) :
    ∃ w : Field, w.name ≠ [] ∧ String.ofList w.name = name ∧ w.text = fieldText name := by
  rw [groupField?] at h
  split at h
  · cases h
  · next hne =>
    obtain rfl := Option.some.inj h
    refine ⟨quotedField (fieldNameChars (sources cells)) (trim_fieldNameChars _)
      (backQuote_notMem_fieldNameChars _), hne, rfl, ?_⟩
    rw [fieldText, String.toList_ofList]
    rfl

theorem Grouping.isEmpty_grouping (g : Grouping) : g.grouping.isEmpty = g.items.isEmpty := by
  cases hb : g.bucket <;> cases hf : g.fields <;>
    simp [QueryStats.Grouping.isEmpty, grouping, items, hb, hf]

/-! ## The whole clause -/

/-- A list of things that can each be written can be written. -/
theorem exists_map_eq {α β γ : Type} {f : β → α} {text : β → γ} {canonical : α → γ} {as : List α}
    (h : ∀ a ∈ as, ∃ w, f w = a ∧ text w = canonical a) :
    ∃ ws : List β, ws.map f = as ∧ ws.map text = as.map canonical := by
  induction as with
  | nil => exact ⟨[], rfl, rfl⟩
  | cons a as ih =>
    rw [List.forall_mem_cons] at h
    obtain ⟨w, hw, ht⟩ := h.1
    obtain ⟨ws, hws, hts⟩ := ih h.2
    exact ⟨w :: ws, by rw [List.map_cons, hw, hws], by rw [List.map_cons, List.map_cons, ht, hts]⟩

variable {s : List Char} {ps : List Piece}

theorem exists_calls (hs : CommentFree s) (hps : ∀ p ∈ ps, p.FoundIn (mask s)) :
    ∃ calls : List Call, calls.map Call.aggregation = (Clause.ofPieces ps).aggregations ∧
      calls.map Call.text = (Clause.ofPieces ps).aggregations.map Aggregation.callText := by
  refine exists_map_eq fun a ha => ?_
  obtain ⟨c, hc, rfl⟩ := List.mem_map.1 ha
  obtain ⟨u, rest, hu, hcall⟩ := call?_of_mem_requested hps hc
  exact exists_call hs hu hcall

theorem exists_bucket? (hps : ∀ p ∈ ps, p.FoundIn (mask s)) :
    ∃ b : Option Bucket, b.map Bucket.bucket = (Clause.ofPieces ps).grouping.bucket ∧
      b.map Bucket.text =
        (Clause.ofPieces ps).grouping.bucket.map QueryStats.Bucket.spanText := by
  simp only [Clause.ofPieces]
  cases hl : (ps.filterMap Piece.bucketing?).getLast? with
  | none => exact ⟨none, rfl, rfl⟩
  | some b =>
    obtain ⟨u, rest, hu, hc⟩ := bucketing?_of_mem hps (List.mem_of_getLast? hl)
    obtain ⟨w, hw, ht⟩ := exists_bucket hu hc
    exact ⟨some w, congrArg some hw, congrArg some ht⟩

theorem exists_fields (ps : List Piece) :
    ∃ fs : List { f : Field // f.name ≠ [] },
      fs.map (fun f => String.ofList f.1.name) = (Clause.ofPieces ps).grouping.fields ∧
      fs.map (fun f => f.1.text) = (Clause.ofPieces ps).grouping.fields.map fieldText := by
  refine exists_map_eq fun name hname => ?_
  obtain ⟨cells, -, hcells⟩ := List.mem_filterMap.1 hname
  obtain ⟨w, hne, hw, ht⟩ := exists_field hcells
  exact ⟨⟨w, hne⟩, hw, ht⟩

theorem exists_grouping (hps : ∀ p ∈ ps, p.FoundIn (mask s)) :
    ∃ g : Grouping, g.grouping = (Clause.ofPieces ps).grouping ∧
      g.text = (Clause.ofPieces ps).grouping.listText := by
  obtain ⟨bucket, hb, hbt⟩ := exists_bucket? hps
  obtain ⟨fields, hf, hft⟩ := exists_fields ps
  have hnamed : ∀ f ∈ fields.map Subtype.val, f.name ≠ [] := by
    intro f hm
    obtain ⟨f, -, rfl⟩ := List.mem_map.1 hm
    exact f.2
  refine ⟨⟨bucket, fields.map Subtype.val, hnamed⟩, ?_, ?_⟩
  · rw [Grouping.grouping, hb, List.map_map]
    exact congrArg (QueryStats.Grouping.mk · _) hf
  · have ht : bucket.toList.map (Item.text ∘ Item.bucket) =
        (Clause.ofPieces ps).grouping.bucket.toList.map QueryStats.Bucket.spanText := by
      rw [← Option.toList_map, ← Option.toList_map, ← hbt]
      rfl
    rw [Grouping.text, Grouping.items, QueryStats.Grouping.listText, ← hft, List.map_append,
      List.map_map, List.map_map, List.map_map, ht]
    rfl

end Written

open Written

/-- Every clause of a query is the clause of the query that it is written out as. -/
theorem ofQuery_canonical (query : String) :
    Clause.ofQuery (Clause.ofQuery query).canonical = Clause.ofQuery query := by
  have hs := commentFree_stripFrom query.toList
  have hps := foundIn_piecesFrom [] (mask (stripFrom .code query.toList))
  obtain ⟨calls, hcalls, hcallText⟩ := exists_calls hs hps
  obtain ⟨g, hg, hlistText⟩ := exists_grouping hps
  have hc : Clause.ofQuery query = ⟨calls.map Written.Call.aggregation, g.grouping⟩ := by
    rw [hcalls, hg]
    rfl
  have ht : (Clause.ofQuery query).canonical = String.ofList (select calls g) := by
    have ha : (Clause.ofQuery query).aggregations.map Aggregation.callText = calls.map Call.text :=
      hcallText.symm
    have hl : (Clause.ofQuery query).grouping.listText = g.text := hlistText.symm
    have he : (Clause.ofQuery query).grouping.isEmpty = g.items.isEmpty := by
      rw [← g.isEmpty_grouping, hc]
    unfold Clause.canonical select groupBy callList
    rw [ha, hl, he]
  rw [ht, Clause.ofQuery, String.toList_ofList,
    stripFrom_of_commentFree (commentFree_select calls g), ofChars_select, hc]

end QueryStats
