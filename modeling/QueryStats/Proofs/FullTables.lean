import QueryStats.Proofs.Alignment

/-!
# Tables shown in full

On a terminal that is as wide as a table no column is limited and no line is cut.  Then each row is
made of boxes that show its cells in full (`FullBoxes`), and the lines that show a clause are made
of its rows: one for each aggregation, and one for the time bucket and for each field.
-/

namespace QueryStats.Terminal

/-- Whether a text is made of boxes in columns of given widths, each of which shows a cell in full,
filled up with blanks on one side of it. -/
inductive FullBoxes : List Nat → List (List Char) → List Char → Prop
  | nil : FullBoxes [] [] []
  | cons {w : Nat} {cell box : List Char} {ws : List Nat} {cells : List (List Char)}
      {rest : List Char} (fits : cell.length ≤ w) (full : Pads (w - cell.length) cell box)
      (next : FullBoxes ws cells rest) :
      FullBoxes (w :: ws) (cell :: cells) (' ' :: (box ++ ' ' :: '|' :: rest))

/-- Cells that fit in their columns stand there in full. -/
theorem fullBoxes_of_fits {cells : List (List Char)} {ws : List Nat} (h : Fits cells ws)
    (he : ∀ cell ∈ cells, escape ∉ cell) :
    FullBoxes ws cells (List.zipWith cellBox ws cells).flatten := by
  induction h with
  | nil => exact .nil
  | @cons cell w cells ws hw _ ih =>
    rw [List.forall_mem_cons] at he
    rw [visibleLength_of_notMem he.1] at hw
    have hpads := pads_paddedCell w cell
    rw [shorten_of_le hw, visibleLength_of_notMem he.1] at hpads
    rw [List.zipWith_cons_cons, List.flatten_cons, cellBox_eq]
    have hbox := FullBoxes.cons hw hpads (ih he.2)
    simpa using hbox

namespace Grid

/-- The width of a line of the table where the terminal does not limit its columns. -/
def naturalWidth (g : Grid) : Nat := 1 + (g.columns.map fun column => longest column + 3).sum

/-- The lines of a table with the given lines for its rows, none of them fitted. -/
def framed (g : Grid) (rows : List (List Char)) : List (List Char) :=
  let rule := ruleLine (g.columns.map longest)
  if rows.isEmpty then ["  (none)".toList]
  else rule :: headerLine (g.columns.map longest) g.headers :: rule :: rows ++ [rule]

/-- Whether a line shows the given cells in full, in the columns of a table. -/
def ShowsRow (g : Grid) (cells : List String) (line : List Char) : Prop :=
  ∃ boxes, line = '|' :: boxes ∧
    FullBoxes (g.columns.map longest) (cells.map String.toList) boxes

/-- The lines of the rows of a table where the terminal does not limit its columns. -/
def rowLines (g : Grid) : List (List Char) := g.rows.map (rowLine (g.columns.map longest))

variable {g : Grid}

theorem le_naturalWidth {w : Nat} (hw : w ∈ g.columns.map longest) : w ≤ g.naturalWidth := by
  obtain ⟨column, hc, rfl⟩ := List.mem_map.1 hw
  have hle : longest column + 3 ≤ (g.columns.map fun column => longest column + 3).sum :=
    List.le_sum_of_mem (List.mem_map_of_mem hc)
  unfold naturalWidth
  omega

/-- The lines of a table on a terminal that is wide enough. -/
theorem lines_of_naturalWidth_le (he : g.EscapeFree) (hg : g.Rectangular)
    (hh : ∀ header ∈ g.headers, header ≠ []) {width : Nat}
    (hw : g.rows ≠ [] → g.naturalWidth ≤ width) :
    g.lines width = g.framed g.rowLines := by
  by_cases hr : g.rows = []
  · rw [lines, framed, rowLines, hr]
    rfl
  have hwidth := hw hr
  have hne : g.rows.isEmpty = false := List.isEmpty_eq_false_iff.2 hr
  have hws : g.widths width = g.columns.map longest := by
    rw [← naturalWidths_eq he hg]
    refine widths_of_wide fun w hm => Nat.le_trans (le_naturalWidth ?_) hwidth
    rwa [← naturalWidths_eq he hg]
  have hline : g.lineWidth width = g.naturalWidth := by
    rw [widths_eq he hg] at hws
    have := congrArg (fun ws => 1 + (ws.map (· + 3)).sum) hws
    simpa only [lineWidth, naturalWidth, List.map_map, Function.comp_def] using this
  have hfit : (g.rawLines width).map (fit width) = g.rawLines width := by
    conv_rhs => rw [← List.map_id (g.rawLines width)]
    refine List.map_congr_left fun line hl => ?_
    have hone : 1 ≤ width := Nat.le_trans (Nat.le_add_right 1 _) hwidth
    have hmeasure := (measures_of_mem_rawLines he hg hl).2.2 hh hone
    exact if_pos (by omega)
  rw [lines, hne, if_neg Bool.false_ne_true, hfit, rawLines, hws, framed, rowLines,
    List.isEmpty_map, hne,
    if_neg Bool.false_ne_true]

/-- The line of a row shows its cells in full. -/
theorem showsRow_rowLine (he : g.EscapeFree) (hg : g.Rectangular) {cells : List String}
    (hr : cells.map String.toList ∈ g.rows) :
    g.ShowsRow cells (rowLine (g.columns.map longest) (cells.map String.toList)) := by
  refine ⟨_, rfl, ?_⟩
  rw [← naturalWidths_eq he hg]
  exact fullBoxes_of_fits (hg.fits hr) (he _ (List.mem_cons_of_mem _ hr))

theorem exists_line_of_getElem? (he : g.EscapeFree) (hg : g.Rectangular) {cells : List String}
    {i : Nat} (hr : g.rows[i]? = some (cells.map String.toList)) :
    ∃ line, g.rowLines[i]? = some line ∧ g.ShowsRow cells line := by
  refine ⟨_, ?_, showsRow_rowLine he hg (List.mem_of_getElem? hr)⟩
  rw [rowLines, List.getElem?_map, hr, Option.map_some]

end Grid

end QueryStats.Terminal

namespace QueryStats.Clause

open Terminal

variable {c : Clause}

/-- A row has its number, counted from 1, in front. -/
theorem getElem?_numbered {rows : List (List String)} {i : Nat} (texts : List String)
    (h : rows[i]? = some texts) :
    (numbered rows)[i]? = some ((toString (i + 1) :: texts).map String.toList) := by
  rw [numbered, List.getElem?_map, List.getElem?_zipIdx, h]
  simp

/-- On a terminal as wide as both tables and the summary nothing of a clause without escape
sequences is lost.  The lines are the two tables below their headings and the summary.  The first
table has a row for each aggregation, the second one for the time bucket, if there is one, and then
one for each field, and each row shows its cells in full. -/
theorem lines_full (he : c.EscapeFree) {width : Nat}
    (hg : ∀ g ∈ [c.aggregationGrid, c.groupingGrid], g.rows ≠ [] → g.naturalWidth ≤ width)
    (hs : visibleLength c.summary.toList ≤ width) :
    ∃ aggregations groups : List (List Char),
      c.lines width =
        "aggregations:" :: (c.aggregationGrid.framed aggregations).map String.ofList ++
          "group by:" :: (c.groupingGrid.framed groups).map String.ofList ++ [c.summary] ∧
      aggregations.length = c.aggregations.length ∧
      (∀ i a, c.aggregations[i]? = some a → ∃ line, aggregations[i]? = some line ∧
        c.aggregationGrid.ShowsRow [toString (i + 1), a.title, a.name, a.argument] line) ∧
      groups.length = c.grouping.bucket.toList.length + c.grouping.fields.length ∧
      (∀ b, c.grouping.bucket = some b → ∃ line, groups[0]? = some line ∧
        c.groupingGrid.ShowsRow ["1", "span", b.field, b.label, b.amount ++ b.unit] line) ∧
      ∀ i field, c.grouping.fields[i]? = some field →
        ∃ line, groups[c.grouping.bucket.toList.length + i]? = some line ∧
          c.groupingGrid.ShowsRow
            [toString (c.grouping.bucket.toList.length + i + 1), "field", field, "", ""] line := by
  have hagg : c.aggregationGrid ∈ [c.aggregationGrid, c.groupingGrid] := List.mem_cons_self
  have hgroup : c.groupingGrid ∈ [c.aggregationGrid, c.groupingGrid] :=
    List.mem_cons_of_mem _ List.mem_cons_self
  have hlines {g : Grid} (hm : g ∈ [c.aggregationGrid, c.groupingGrid]) :
      g.lines width = g.framed g.rowLines :=
    Grid.lines_of_naturalWidth_le (he.grid hm) (rectangular_of_mem hm)
      (fun header hh => (headers_of_mem hm header hh).1) (hg g hm)
  refine ⟨c.aggregationGrid.rowLines, c.groupingGrid.rowLines, ?_, ?_, fun i a ha => ?_, ?_,
    fun b hb => ?_, fun i field hf => ?_⟩
  · rw [lines, lineChars, hlines hagg, hlines hgroup, fit, if_pos hs]
    simp only [List.cons_append, List.map_cons, List.map_append, List.map_nil, String.ofList_toList]
  · rw [Grid.rowLines, List.length_map, aggregationGrid, numbered, List.length_map,
      List.length_zipIdx, List.length_map]
  · refine Grid.exists_line_of_getElem? (he.grid hagg) (rectangular_of_mem hagg) ?_
    refine getElem?_numbered [a.title, a.name, a.argument] ?_
    rw [List.getElem?_map, ha, Option.map_some]
  · rw [Grid.rowLines, List.length_map, groupingGrid, numbered, List.length_map, List.length_zipIdx,
      List.length_append, List.length_map, List.length_map]
  · refine Grid.exists_line_of_getElem? (he.grid hgroup) (rectangular_of_mem hgroup) ?_
    refine getElem?_numbered ["span", b.field, b.label, b.width] ?_
    rw [hb]
    rfl
  · refine Grid.exists_line_of_getElem? (he.grid hgroup) (rectangular_of_mem hgroup) ?_
    refine getElem?_numbered ["field", field, "", ""] ?_
    rw [List.getElem?_append_right (by rw [List.length_map]; omega), List.length_map,
      Nat.add_sub_cancel_left, List.getElem?_map, hf, Option.map_some]

/-- A clause on a terminal that is just as wide as its first table. -/
theorem lines_full_exactly :
    let c : Clause := ⟨[⟨"avg", "größe", "", "mean"⟩], ⟨["host"], some ⟨"ts", "1", "h", "", ""⟩⟩⟩
    c.EscapeFree ∧
      (∀ g ∈ [c.aggregationGrid, c.groupingGrid], g.rows ≠ [] → g.naturalWidth ≤ 43) ∧
      visibleLength c.summary.toList ≤ 43 ∧
      ∃ aggregations groups : List (List Char),
        c.lines 43 =
          "aggregations:" :: (c.aggregationGrid.framed aggregations).map String.ofList ++
            "group by:" :: (c.groupingGrid.framed groups).map String.ofList ++ [c.summary] ∧
        aggregations.length = 1 ∧ ∃ line, aggregations[0]? = some line ∧
          c.aggregationGrid.ShowsRow ["1", "mean", "avg", "größe"] line := by
  intro c
  have he : c.EscapeFree := by decide +kernel
  have hg : ∀ g ∈ [c.aggregationGrid, c.groupingGrid], g.rows ≠ [] → g.naturalWidth ≤ 43 := by
    decide +kernel
  have hs : visibleLength c.summary.toList ≤ 43 := by decide +kernel
  obtain ⟨aggregations, groups, hlines, hlen, hrow, -⟩ := lines_full he hg hs
  exact ⟨he, hg, hs, aggregations, groups, hlines, hlen, hrow 0 _ rfl⟩

end QueryStats.Clause
