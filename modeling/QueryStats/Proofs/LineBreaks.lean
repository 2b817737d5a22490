import QueryStats.Command.Output
import QueryStats.Proofs.Capture
import QueryStats.Proofs.Columns

/-!
# Line breaks in tables

A table shows the texts of its cells as they are.  Nothing else in it holds a line break, and of a
clause only an argument, a label and a field can hold one: names, amounts and units are words.  So
the lines that show the clause of a query are lines indeed where those texts hold no line break
(`oneLine_lines`); where one does, a terminal that is wide enough shows it.
-/

namespace QueryStats

/-- Whether a character ends a line. -/
def isLineBreak (c : Char) : Bool := c = '\n' || c = '\r'

/-- Whether a text stays on one line. -/
def OneLine (t : List Char) : Prop := ∀ c ∈ t, isLineBreak c = false

instance (t : List Char) : Decidable (OneLine t) := List.decidableBAll _ t

theorem oneLine_nil : OneLine [] := fun _ h => nomatch h

@[simp] theorem oneLine_cons {c : Char} {t : List Char} :
    OneLine (c :: t) ↔ isLineBreak c = false ∧ OneLine t := List.forall_mem_cons

@[simp] theorem oneLine_append {s t : List Char} : OneLine (s ++ t) ↔ OneLine s ∧ OneLine t :=
  List.forall_mem_append

theorem OneLine.mono {s t : List Char} (h : OneLine t) (hs : s ⊆ t) : OneLine s :=
  fun c hc => h c (hs hc)

theorem oneLine_replicate {c : Char} (h : isLineBreak c = false) (n : Nat) :
    OneLine (List.replicate n c) := fun _ hd => List.eq_of_mem_replicate hd ▸ h

theorem oneLine_flatten {ts : List (List Char)} (h : ∀ t ∈ ts, OneLine t) : OneLine ts.flatten := by
  intro c hc
  obtain ⟨t, ht, hc⟩ := List.mem_flatten.1 hc
  exact h t ht c hc

/-- The characters of a word end no line. -/
theorem oneLine_of_isAliasChar {t : List Char} (h : ∀ c ∈ t, Query.isAliasChar c = true) :
    OneLine t := by
  intro c hc
  have := Query.of_isAliasChar (p := fun c => !isLineBreak c) (by decide) (by decide) (by decide)
    (h c hc)
  simpa using this

namespace Terminal

/-! ## Fitted lines -/

theorem chars_glyphsFrom (w : Within) (line : List Char) :
    (glyphsFrom w line).map Glyph.char = line := by
  induction line generalizing w with
  | nil => simp
  | cons c line ih => simp [ih]

theorem keepVisible_sublist (n : Nat) (gs : List Glyph) :
    (keepVisible n gs).Sublist (gs.map Glyph.char) := by
  induction gs generalizing n with
  | nil => simp [keepVisible]
  | cons g gs ih =>
    cases n with
    | zero =>
      rw [keepVisible]
      split
      · exact (ih 0).cons _
      · exact (ih 0).cons_cons _
    | succ n => exact (ih _).cons_cons _

theorem oneLine_fit {line : List Char} (h : OneLine line) (width : Nat) :
    OneLine (fit width line) := by
  rw [fit]
  split
  · exact h
  · have hkept := keepVisible_sublist (width - 1) (glyphs line)
    rw [glyphs, chars_glyphsFrom] at hkept
    exact oneLine_append.2 ⟨h.mono hkept.subset, by decide⟩

/-! ## Boxes and rows -/

theorem oneLine_shorten {cell : List Char} (h : OneLine cell) (width : Nat) :
    OneLine (shorten width cell) := by
  rw [shorten]
  split
  · exact h
  · exact oneLine_append.2 ⟨h.mono (List.take_subset _ _), by decide⟩

theorem oneLine_padding (width : Nat) (text : List Char) : OneLine (padding width text) :=
  oneLine_replicate rfl _

theorem oneLine_cellBox {cell : List Char} (h : OneLine cell) (width : Nat) :
    OneLine (cellBox width cell) := by
  have ht := oneLine_shorten h width
  have hp := oneLine_padding width (shorten width cell)
  simp only [cellBox]
  split <;> simp [ht, hp, oneLine_nil, isLineBreak]

theorem oneLine_headerBox {header : List Char} (h : OneLine header) (width : Nat) :
    OneLine (headerBox width header) := by
  have ht := oneLine_shorten h width
  have hp := oneLine_padding width (shorten width header)
  have hg : OneLine (green ++ plain) := by decide
  rw [oneLine_append] at hg
  simp [headerBox, hg, ht, hp, oneLine_nil, isLineBreak]

theorem oneLine_ruleLine (widths : List Nat) : OneLine (ruleLine widths) := by
  refine oneLine_cons.2 ⟨rfl, oneLine_flatten fun box hb => ?_⟩
  obtain ⟨w, -, rfl⟩ := List.mem_map.1 hb
  exact oneLine_append.2 ⟨oneLine_replicate rfl _, by decide⟩

/-- Boxes in a row stay on one line when each of them does. -/
theorem oneLine_boxes {box : Nat → List Char → List Char}
    (hbox : ∀ {cell}, OneLine cell → ∀ width, OneLine (box width cell)) {cells : List (List Char)}
    (h : ∀ cell ∈ cells, OneLine cell) (widths : List Nat) :
    OneLine (List.zipWith box widths cells).flatten := by
  induction widths generalizing cells with
  | nil => exact oneLine_nil
  | cons w widths ih =>
    cases cells with
    | nil => exact oneLine_nil
    | cons cell cells =>
      rw [List.forall_mem_cons] at h
      exact oneLine_append.2 ⟨hbox h.1 w, ih h.2⟩

/-- A table stays on its lines when its headers and cells do. -/
theorem Grid.oneLine_of_mem_lines {g : Grid} (hh : ∀ header ∈ g.headers, OneLine header)
    (hc : ∀ row ∈ g.rows, ∀ cell ∈ row, OneLine cell) {width : Nat} {line : List Char}
    (hl : line ∈ g.lines width) : OneLine line := by
  rw [lines] at hl
  split at hl
  · rw [List.mem_singleton.1 hl]
    decide
  · obtain ⟨raw, hr, rfl⟩ := List.mem_map.1 hl
    refine oneLine_fit ?_ width
    simp only [rawLines, List.mem_cons, List.mem_append, List.mem_map, List.not_mem_nil,
      or_false] at hr
    rcases hr with (rfl | rfl | rfl | ⟨row, hr, rfl⟩) | rfl
    · exact oneLine_ruleLine _
    · exact oneLine_cons.2 ⟨rfl, oneLine_boxes oneLine_headerBox hh _⟩
    · exact oneLine_ruleLine _
    · exact oneLine_cons.2 ⟨rfl, oneLine_boxes oneLine_cellBox (hc row hr) _⟩
    · exact oneLine_ruleLine _

end Terminal

open Terminal

/-- The title of an aggregation is made of its texts and a pair of parentheses. -/
theorem Aggregation.forall_mem_title {p : Char → Prop} (hp : ∀ ch ∈ ['(', ')'], p ch)
    {a : Aggregation} (hn : ∀ ch ∈ a.name.toList, p ch) (ha : ∀ ch ∈ a.argument.toList, p ch)
    (hl : ∀ ch ∈ a.label.toList, p ch) : ∀ ch ∈ a.title.toList, p ch := by
  simp only [List.forall_mem_cons] at hp
  rw [title]
  split
  · simp only [String.toList_append, List.forall_mem_append]
    exact ⟨⟨⟨hn, by simpa using hp.1⟩, ha⟩, by simpa using hp.2.1⟩
  · exact hl

namespace Clause

/-! ## The texts of a clause -/

/-- The texts of a clause that may hold any characters: arguments, labels and fields. -/
def freeTexts (c : Clause) : List String :=
  c.aggregations.flatMap (fun a => [a.argument, a.label]) ++
    (c.grouping.bucket.toList.flatMap (fun b => [b.field, b.label]) ++ c.grouping.fields)

/-- The texts of a clause that are words: names of functions, and widths of time buckets. -/
def wordTexts (c : Clause) : List String :=
  c.aggregations.map Aggregation.name ++ c.grouping.bucket.toList.map Bucket.width

/-- Names, amounts and units of a query are words. -/
theorem isAliasChar_of_mem_wordTexts {query : String} {word : String}
    (hw : word ∈ (ofQuery query).wordTexts) : ∀ c ∈ word.toList, Query.isAliasChar c = true := by
  have hs := Query.commentFree_stripFrom query.toList
  have hps := Query.foundIn_piecesFrom [] (Query.mask (Query.stripFrom .code query.toList))
  rcases List.mem_append.1 hw with hw | hw
  · obtain ⟨a, ha, rfl⟩ := List.mem_map.1 hw
    obtain ⟨call, hcall, rfl⟩ := List.mem_map.1 ha
    obtain ⟨u, rest, hu, hc⟩ := Query.call?_of_mem_requested hps hcall
    obtain ⟨⟨name, hname, -, hn⟩, -⟩ := Query.call?_captures hs hu hc
    rw [Query.Call.aggregation, Query.sourceText, hname, Query.sources_shown, String.toList_ofList]
    exact fun c hc => Query.isAliasChar_of_isNameChar (hn c hc)
  · obtain ⟨b, hb, rfl⟩ := List.mem_map.1 hw
    rw [Option.mem_toList] at hb
    obtain ⟨bucketing, hbucketing, rfl⟩ := Option.map_eq_some_iff.1 hb
    obtain ⟨u, rest, hu, hc⟩ := Query.bucketing?_of_mem hps (List.mem_of_getLast? hbucketing)
    obtain ⟨⟨amount, hamount, ha⟩, ⟨unit, hunit, -, hl⟩, -⟩ := Query.bucketing?_captures hu hc
    rw [Bucket.width, Query.Bucketing.bucket, Query.sourceText, Query.sourceText, hamount, hunit,
      Query.sources_shown, Query.sources_shown, String.toList_append, String.toList_ofList,
      String.toList_ofList, List.forall_mem_append]
    exact ⟨ha.isAliasChar, fun c hc => Query.isAliasChar_of_isLetter (hl c hc)⟩

theorem oneLine_of_mem_wordTexts {query : String} {word : String}
    (hw : word ∈ (ofQuery query).wordTexts) : OneLine word.toList :=
  oneLine_of_isAliasChar (isAliasChar_of_mem_wordTexts hw)

/-! ## The cells of the tables -/

theorem isDigit_of_mem_toString {n : Nat} {ch : Char} (h : ch ∈ (toString n).toList) :
    ch.isDigit = true := by
  rw [Nat.toString_eq_repr, Nat.toList_repr] at h
  exact Nat.isDigit_of_mem_toDigits (by decide) (by decide) h

/-- Numbers in front of rows bring in digits only. -/
theorem forall_mem_numbered {p : Char → Prop} (hd : ∀ ch, ch.isDigit = true → p ch)
    {rows : List (List String)} (h : ∀ row ∈ rows, ∀ cell ∈ row, ∀ ch ∈ cell.toList, p ch) :
    ∀ row ∈ numbered rows, ∀ cell ∈ row, ∀ ch ∈ cell, p ch := by
  intro row hr cell hc
  obtain ⟨⟨texts, i⟩, ht, rfl⟩ := List.mem_map.1 hr
  rcases List.mem_cons.1 hc with rfl | hc
  · exact fun ch hm => hd ch (isDigit_of_mem_toString hm)
  · obtain ⟨text, hm, rfl⟩ := List.mem_map.1 hc
    exact h texts (List.fst_mem_of_mem_zipIdx ht) text hm

theorem rectangular_numbered {rows : List (List String)} {n : Nat}
    (h : ∀ row ∈ rows, row.length = n) : ∀ row ∈ numbered rows, row.length = n + 1 := by
  intro row hr
  obtain ⟨⟨texts, i⟩, ht, rfl⟩ := List.mem_map.1 hr
  rw [List.length_cons, List.length_map, h texts (List.fst_mem_of_mem_zipIdx ht)]

variable {c : Clause}

theorem rectangular_aggregationGrid (c : Clause) : c.aggregationGrid.Rectangular := by
  refine rectangular_numbered (n := 3) fun row hr => ?_
  obtain ⟨a, -, rfl⟩ := List.mem_map.1 hr
  rfl

theorem rectangular_groupingGrid (c : Clause) : c.groupingGrid.Rectangular := by
  refine rectangular_numbered (n := 4) fun row hr => ?_
  rcases List.mem_append.1 hr with hr | hr <;> obtain ⟨a, -, rfl⟩ := List.mem_map.1 hr <;> rfl

/-- The cells of both tables are made of the texts of the clause, of digits and parentheses, and of
the two words that name a kind. -/
theorem forall_mem_rows {p : Char → Prop} (hd : ∀ ch, ch.isDigit = true → p ch)
    (hp : ∀ ch ∈ "()spanfield".toList, p ch)
    (hw : ∀ word ∈ c.wordTexts, ∀ ch ∈ word.toList, p ch)
    (hf : ∀ text ∈ c.freeTexts, ∀ ch ∈ text.toList, p ch) {g : Grid}
    (hg : g ∈ [c.aggregationGrid, c.groupingGrid]) :
    ∀ row ∈ g.rows, ∀ cell ∈ row, ∀ ch ∈ cell, p ch := by
  simp only [wordTexts, freeTexts, List.forall_mem_append, List.forall_mem_map,
    List.forall_mem_flatMap] at hw hf
  obtain ⟨hname, hwidth⟩ := hw
  obtain ⟨hagg, hbucket, hfield⟩ := hf
  have hsub {t : List Char} (ht : t ⊆ "()spanfield".toList) : ∀ ch ∈ t, p ch :=
    fun ch hm => hp ch (ht hm)
  rw [List.mem_cons, List.mem_singleton] at hg
  rcases hg with rfl | rfl
  · refine forall_mem_numbered hd fun row hr => ?_
    obtain ⟨a, hm, rfl⟩ := List.mem_map.1 hr
    obtain ⟨harg, hlabel⟩ := List.forall_mem_cons.1 (hagg a hm)
    rw [List.forall_mem_singleton] at hlabel
    have htitle := Aggregation.forall_mem_title (hsub (by decide)) (hname a hm) harg hlabel
    simp only [List.forall_mem_cons]
    exact ⟨htitle, hname a hm, harg, fun _ h => nomatch h⟩
  · refine forall_mem_numbered hd fun row hr => ?_
    rcases List.mem_append.1 hr with hr | hr
    · obtain ⟨b, hm, rfl⟩ := List.mem_map.1 hr
      obtain ⟨hbf, hbl⟩ := List.forall_mem_cons.1 (hbucket b hm)
      rw [List.forall_mem_singleton] at hbl
      simp only [List.forall_mem_cons]
      exact ⟨hsub (by decide), hbf, hbl, hwidth b hm, fun _ h => nomatch h⟩
    · obtain ⟨field, hm, rfl⟩ := List.mem_map.1 hr
      simp only [List.forall_mem_cons]
      exact ⟨hsub (by decide), hfield field hm, hsub (by decide), hsub (by decide),
        fun _ h => nomatch h⟩

/-! ## The lines that show a clause -/

theorem oneLine_toString (n : Nat) : OneLine (toString n).toList :=
  oneLine_of_isAliasChar fun _ hc => Query.isAliasChar_of_isDigit (isDigit_of_mem_toString hc)

theorem oneLine_summary (h : ∀ b ∈ c.grouping.bucket, OneLine b.width.toList) :
    OneLine c.summary.toList := by
  have hspan : OneLine ((c.grouping.bucket.map Bucket.width).getD "none").toList := by
    cases hb : c.grouping.bucket with
    | none => decide
    | some b => exact h b hb
  have hn := oneLine_toString c.aggregations.length
  have hm := oneLine_toString c.grouping.fields.length
  unfold summary
  simp only [String.toList_append, oneLine_append]
  refine ⟨⟨⟨⟨⟨?_, hn⟩, ?_⟩, hm⟩, ?_⟩, hspan⟩ <;> decide

/-- The lines that show a clause are lines if its texts are. -/
theorem oneLine_of_mem_lines (hw : ∀ word ∈ c.wordTexts, OneLine word.toList)
    (hf : ∀ text ∈ c.freeTexts, OneLine text.toList) {width : Nat} {line : String}
    (hl : line ∈ c.lines width) : OneLine line.toList := by
  obtain ⟨chars, hc, rfl⟩ := List.mem_map.1 hl
  rw [String.toList_ofList]
  have hdigit (ch : Char) (h : ch.isDigit = true) : isLineBreak ch = false :=
    oneLine_of_isAliasChar (t := [ch]) (by simpa using Query.isAliasChar_of_isDigit h) ch
      List.mem_cons_self
  have hrows {g : Grid} (hg : g ∈ [c.aggregationGrid, c.groupingGrid]) :=
    forall_mem_rows hdigit (by decide) hw hf hg
  rcases mem_lineChars.1 hc with h | ha | h | hg | h
  · rw [h]
    decide
  · exact Grid.oneLine_of_mem_lines (by simp only [aggregationGrid]; decide) (hrows (by simp)) ha
  · rw [h]
    decide
  · exact Grid.oneLine_of_mem_lines (by simp only [groupingGrid]; decide) (hrows (by simp)) hg
  · rw [h]
    refine oneLine_fit (oneLine_summary fun b hb => ?_) width
    exact hw b.width (List.mem_append_right _ (List.mem_map_of_mem (Option.mem_toList.2 hb)))

/-! ## Texts on a wide terminal -/

theorem exists_row_of_mem {rows : List (List String)} {texts : List String} (h : texts ∈ rows) :
    ∃ row ∈ numbered rows, ∀ text ∈ texts, text.toList ∈ row := by
  obtain ⟨i, hi, rfl⟩ := List.mem_iff_getElem.1 h
  refine ⟨_, List.mem_map.2 ⟨(rows[i], i), ?_, rfl⟩, fun text ht => ?_⟩
  · rw [List.mem_zipIdx_iff_getElem?]
    exact List.getElem?_eq_getElem hi
  · exact List.mem_cons_of_mem _ (List.mem_map_of_mem ht)

/-- A cell without escape sequences is shown in full where the terminal is wide enough. -/
theorem exists_line_of_mem_aggregations {a : Aggregation} (ha : a ∈ c.aggregations) {text : String}
    (ht : text ∈ [a.title, a.name, a.argument]) (he : escape ∉ text.toList) :
    ∃ width, ∃ line ∈ c.lines width, text.toList ⊆ line.toList := by
  obtain ⟨row, hr, hrow⟩ := exists_row_of_mem (List.mem_map_of_mem ha)
  obtain ⟨width, line, hl, hs⟩ :=
    Grid.exists_line_of_mem c.rectangular_aggregationGrid hr (hrow text ht) he
  exact ⟨width, String.ofList line, List.mem_map_of_mem (mem_lineChars.2 (Or.inr (Or.inl hl))),
    by rwa [String.toList_ofList]⟩

theorem exists_line_of_mem_grouping {texts : List String}
    (hr : texts ∈ c.grouping.bucket.toList.map (fun b => ["span", b.field, b.label, b.width]) ++
      c.grouping.fields.map fun f => ["field", f, "", ""])
    {text : String} (ht : text ∈ texts) (he : escape ∉ text.toList) :
    ∃ width, ∃ line ∈ c.lines width, text.toList ⊆ line.toList := by
  obtain ⟨row, hr, hrow⟩ := exists_row_of_mem hr
  obtain ⟨width, line, hl, hs⟩ :=
    Grid.exists_line_of_mem c.rectangular_groupingGrid hr (hrow text ht) he
  exact ⟨width, String.ofList line,
    List.mem_map_of_mem (mem_lineChars.2 (Or.inr (Or.inr (Or.inr (Or.inl hl))))),
    by rwa [String.toList_ofList]⟩

/-- Every argument, label and field without escape sequences is shown in full where the terminal is
wide enough. -/
theorem exists_line_of_mem_freeTexts {text : String} (ht : text ∈ c.freeTexts)
    (he : escape ∉ text.toList) : ∃ width, ∃ line ∈ c.lines width, text.toList ⊆ line.toList := by
  rcases List.mem_append.1 ht with ht | ht
  · obtain ⟨a, ha, ht⟩ := List.mem_flatMap.1 ht
    rcases List.mem_cons.1 ht with rfl | ht
    · exact exists_line_of_mem_aggregations ha (by simp) he
    · rw [List.mem_singleton.1 ht] at he ⊢
      by_cases hempty : a.label.isEmpty = true
      · rw [String.isEmpty_iff.1 hempty]
        exact ⟨0, _, List.mem_cons_self, List.nil_subset _⟩
      · have htitle : a.title = a.label := if_neg hempty
        exact exists_line_of_mem_aggregations ha (by simp [htitle]) he
  rcases List.mem_append.1 ht with ht | ht
  · obtain ⟨b, hb, ht⟩ := List.mem_flatMap.1 ht
    refine exists_line_of_mem_grouping (List.mem_append_left _ (List.mem_map_of_mem hb)) ?_ he
    rw [List.mem_cons, List.mem_singleton] at ht
    rcases ht with rfl | rfl <;> simp
  · exact exists_line_of_mem_grouping (List.mem_append_right _ (List.mem_map_of_mem ht))
      (by simp) he

end Clause

open Command

/-- Each line that is printed ends in a line feed of its own. -/
theorem count_unlines {lines : List String} (h : ∀ line ∈ lines, OneLine line.toList) :
    (unlines lines).toList.count '\n' = lines.length := by
  rw [unlines, String.toList_join]
  induction lines with
  | nil => rfl
  | cons line lines ih =>
    rw [List.forall_mem_cons] at h
    have hl : '\n' ∉ line.toList := fun hm => absurd (h.1 _ hm) (by decide)
    simp [List.count_eq_zero_of_not_mem hl, ih h.2]

/-- Where the arguments, labels and fields of a query hold no line break, the lines of its table are
lines, and as many are printed; where one of them holds a line break and no escape sequence, a line
of the table on a terminal that is wide enough is broken. -/
theorem oneLine_lines (query : String) :
    ((∀ text ∈ (Clause.ofQuery query).freeTexts, OneLine text.toList) →
      (∀ width, ∀ line ∈ (Clause.ofQuery query).lines width, OneLine line.toList) ∧
        ∀ columns, (showQuery false columns query).toList.count '\n' =
          ((Clause.ofQuery query).lines (tableWidth columns)).length) ∧
      ∀ text ∈ (Clause.ofQuery query).freeTexts, escape ∉ text.toList → ¬OneLine text.toList →
        ∃ width, ∃ line ∈ (Clause.ofQuery query).lines width, ¬OneLine line.toList := by
  constructor
  · intro hf
    have hlines : ∀ width, ∀ line ∈ (Clause.ofQuery query).lines width, OneLine line.toList :=
      fun width line hl => Clause.oneLine_of_mem_lines
        (fun word hw => Clause.oneLine_of_mem_wordTexts hw) hf hl
    exact ⟨hlines, fun columns => count_unlines (hlines (tableWidth columns))⟩
  · intro text ht he hbroken
    obtain ⟨width, line, hl, hs⟩ := Clause.exists_line_of_mem_freeTexts ht he
    exact ⟨width, line, hl, fun hline => hbroken (hline.mono hs)⟩

/-- One query whose argument holds no line break, and one whose argument does. -/
theorem oneLine_lines_arguments :
    (∀ width, ∀ line ∈ (Clause.ofQuery "select count(x) from t").lines width,
        OneLine line.toList) ∧
      ∃ width, ∃ line ∈ (Clause.ofQuery "select count(a\nb) from t").lines width,
        ¬OneLine line.toList := by
  have hfree : ∀ text ∈ (Clause.ofQuery "select count(x) from t").freeTexts,
      OneLine text.toList := by
    decide +kernel
  have hmem : "a\nb" ∈ (Clause.ofQuery "select count(a\nb) from t").freeTexts := by
    decide +kernel
  exact ⟨((oneLine_lines _).1 hfree).1,
    (oneLine_lines _).2 "a\nb" hmem (by decide) (by decide)⟩

/-- A line break in the argument of a call breaks the row that shows it. -/
theorem not_oneLine_brokenArgument :
    ∃ line ∈ (Clause.ofQuery "select count(a\nb) from t").lines 80, ¬OneLine line.toList := by
  decide +kernel

end QueryStats
