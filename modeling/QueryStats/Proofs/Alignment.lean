import Mathlib.Algebra.GroupWithZero.Nat
import QueryStats.Proofs.Boxes
import QueryStats.Proofs.LineBreaks

/-!
# Aligned tables

A line of a table is a border and a box for each column.  Without escape sequences in its cells each
box is as wide as its column (`fills_cellBox`, `fills_headerBox`, `fills_ruleBox`), so before they
are fitted all lines of the table are as wide, and after that they still are.  On a terminal without
columns the boxes may differ, but every line is cut to its ellipsis there.
-/

namespace QueryStats.Terminal

/-! ## Columns -/

/-- The number of characters of the longest of some texts. -/
def longest (texts : List (List Char)) : Nat := (texts.map List.length).foldl max 0

theorem foldl_max_le_iff {ns : List Nat} {n limit : Nat} :
    ns.foldl max n ≤ limit ↔ n ≤ limit ∧ ∀ m ∈ ns, m ≤ limit := by
  induction ns generalizing n with
  | nil => simp
  | cons m ns ih =>
    rw [List.foldl_cons, ih, List.forall_mem_cons, Nat.max_le, and_assoc]

theorem longest_le_iff {texts : List (List Char)} {limit : Nat} :
    longest texts ≤ limit ↔ ∀ text ∈ texts, text.length ≤ limit := by
  rw [longest, foldl_max_le_iff, List.forall_mem_map]
  exact and_iff_right (Nat.zero_le _)

/-- Widening columns row by row widens each by its cells. -/
theorem getElem?_foldl_widen {rows : List (List (List Char))} {ws : List Nat}
    (h : ∀ row ∈ rows, row.length = ws.length) (i : Nat) :
    (rows.foldl widen ws)[i]? =
      ws[i]?.map fun w => ((rows.filterMap (·[i]?)).map visibleLength).foldl max w := by
  induction rows generalizing ws with
  | nil => simp
  | cons row rows ih =>
    rw [List.forall_mem_cons] at h
    have hrest : ∀ other ∈ rows, other.length = (widen ws row).length := fun other ho => by
      rw [length_widen h.1, h.2 other ho]
    rw [List.foldl_cons, ih hrest, widen]
    by_cases hi : i < ws.length
    · have hr : i < row.length := by omega
      simp [hi, hr]
    · have hr : row.length ≤ i := by omega
      simp [Nat.le_of_not_lt hi, hr]

namespace Grid

/-- The header of a column and its cells. -/
def column (g : Grid) (i : Nat) : List (List Char) := (g.headers :: g.rows).filterMap (·[i]?)

def columns (g : Grid) : List (List (List Char)) := (List.range g.headers.length).map g.column

/-- The width of a line of the table if no column may be wider than a limit. -/
def lineWidth (g : Grid) (limit : Nat) : Nat :=
  1 + (g.columns.map fun column => min limit (longest column) + 3).sum

/-- Whether no header and no cell of a table holds an escape sequence. -/
def EscapeFree (g : Grid) : Prop := ∀ row ∈ g.headers :: g.rows, ∀ cell ∈ row, escape ∉ cell

variable {g : Grid}

theorem column_eq_cons {i : Nat} (hi : i < g.headers.length) :
    g.column i = g.headers[i] :: g.rows.filterMap (·[i]?) := by
  rw [column, List.filterMap_cons_some]
  exact List.getElem?_eq_getElem hi

/-- Without escape sequences a column is as wide as its longest header or cell. -/
theorem naturalWidths_eq (he : g.EscapeFree) (hg : g.Rectangular) :
    g.naturalWidths = g.columns.map longest := by
  have hcells (i : Nat) : ((g.rows.filterMap (·[i]?)).map visibleLength) =
      (g.rows.filterMap (·[i]?)).map List.length := by
    refine List.map_congr_left fun cell hc => visibleLength_of_notMem ?_
    obtain ⟨row, hr, hi⟩ := List.mem_filterMap.1 hc
    exact he row (List.mem_cons_of_mem _ hr) cell (List.mem_of_getElem? hi)
  refine List.ext_getElem? fun i => ?_
  rw [naturalWidths, getElem?_foldl_widen fun row hr => by rw [hg row hr, List.length_map],
    columns, List.getElem?_map, List.getElem?_map, List.getElem?_map]
  by_cases hi : i < g.headers.length
  · have hheader : escape ∉ g.headers[i] := he _ List.mem_cons_self _ (List.getElem_mem hi)
    rw [List.getElem?_eq_getElem hi, List.getElem?_range hi, Option.map_some, Option.map_some,
      Option.map_some, Option.map_some, hcells, visibleLength_of_notMem hheader,
      column_eq_cons hi, longest, List.map_cons, List.foldl_cons, Nat.zero_max]
  · simp [hi]

theorem widths_eq (he : g.EscapeFree) (hg : g.Rectangular) (limit : Nat) :
    g.widths limit = g.columns.map fun column => min limit (longest column) := by
  change g.naturalWidths.map (min limit) = _
  rw [naturalWidths_eq he hg, List.map_map]
  rfl

theorem length_widths (he : g.EscapeFree) (hg : g.Rectangular) (limit : Nat) :
    (g.widths limit).length = g.headers.length := by
  rw [widths_eq he hg, List.length_map, columns, List.length_map, List.length_range]

/-- A column with a header has a width. -/
theorem one_le_of_mem_widths (he : g.EscapeFree) (hg : g.Rectangular)
    (hh : ∀ header ∈ g.headers, header ≠ []) {limit w : Nat} (hl : 1 ≤ limit)
    (hw : w ∈ g.widths limit) : 1 ≤ w := by
  rw [widths_eq he hg, columns, List.map_map] at hw
  obtain ⟨i, hi, rfl⟩ := List.mem_map.1 hw
  rw [List.mem_range] at hi
  have hheader : 1 ≤ g.headers[i].length :=
    List.length_pos_of_ne_nil (hh _ (List.getElem_mem hi))
  have hlongest : g.headers[i].length ≤ longest (g.column i) := by
    refine longest_le_iff.1 (Nat.le_refl _) _ ?_
    rw [column_eq_cons hi]
    exact List.mem_cons_self
  change 1 ≤ min limit (longest (g.column i))
  omega

end Grid

/-! ## Boxes that fill their columns -/

/-- Whether a box leaves no sequence open and, if its column has a width, shows that width, a blank
on either side and the border. -/
def Fills (w : Nat) (box : List Char) : Prop := Closed box ∧ (1 ≤ w → visibleLength box = w + 3)

theorem fills_cellBox {cell : List Char} (he : escape ∉ cell) (w : Nat) :
    Fills w (cellBox w cell) := by
  have hs : Closed (shorten w cell) := closed_of_notMem (escape_notMem_shorten he w)
  have hborder : Closed [' ', '|'] := by decide
  have hpadded : Closed (paddedCell w cell) := by
    rcases pads_paddedCell w cell with h | h <;> rw [h]
    · exact hs.append (closed_blanks _)
    · exact (closed_blanks _).append hs
  have hblank : Closed [' '] := by decide
  rw [cellBox_eq, ← List.singleton_append]
  refine ⟨hblank.append (hpadded.append hborder), fun hw => ?_⟩
  have hwidth : visibleLength (paddedCell w cell) = w := by
    rw [visibleLength_paddedCell_eq_iff hw, hs]
    exact Within.noConfusion
  have hone : visibleLength [' '] = 1 := by decide
  have htwo : visibleLength [' ', '|'] = 2 := by decide
  rw [hblank.visibleLength_append, hpadded.visibleLength_append, hwidth, hone, htwo]
  omega

theorem fills_headerBox {header : List Char} (he : escape ∉ header) (w : Nat) :
    Fills w (headerBox w header) := by
  have hs : Closed (shorten w header) := closed_of_notMem (escape_notMem_shorten he w)
  have hpad : Closed (padding w (shorten w header)) := closed_blanks _
  have hgreen : Closed (' ' :: green) := by decide
  have hplain : Closed plain := by decide
  have hborder : Closed [' ', '|'] := by decide
  have hbox : headerBox w header = (' ' :: green) ++ (shorten w header ++
      (plain ++ (padding w (shorten w header) ++ [' ', '|']))) := by
    simp [headerBox]
  rw [hbox]
  refine ⟨hgreen.append (hs.append (hplain.append (hpad.append hborder))), fun hw => ?_⟩
  have hle := visibleLength_shorten_le hw header
  have hblanks : visibleLength (padding w (shorten w header)) =
      w - visibleLength (shorten w header) := visibleFrom_blanks Within.noConfusion _
  have hone : visibleLength (' ' :: green) = 1 := by decide
  have hzero : visibleLength plain = 0 := by decide
  have htwo : visibleLength [' ', '|'] = 2 := by decide
  rw [hgreen.visibleLength_append, hs.visibleLength_append, hplain.visibleLength_append,
    hpad.visibleLength_append, hblanks, hone, hzero, htwo]
  omega

theorem fills_ruleBox (w : Nat) : Fills w (ruleBox w) := by
  have he : escape ∉ ruleBox w := by
    rw [ruleBox, List.mem_append, not_or]
    exact ⟨fun h => absurd (List.eq_of_mem_replicate h) (by decide), by decide⟩
  refine ⟨closed_of_notMem he, fun _ => ?_⟩
  rw [visibleLength_of_notMem he, ruleBox, List.length_append, List.length_replicate,
    List.length_singleton]

theorem forall₂_fills_zipWith {box : Nat → List Char → List Char}
    (hbox : ∀ {cell : List Char}, escape ∉ cell → ∀ w, Fills w (box w cell)) {ws : List Nat}
    {cells : List (List Char)} (hl : cells.length = ws.length)
    (he : ∀ cell ∈ cells, escape ∉ cell) :
    List.Forall₂ Fills ws (List.zipWith box ws cells) := by
  induction ws generalizing cells with
  | nil => exact .nil
  | cons w ws ih =>
    cases cells with
    | nil => cases hl
    | cons cell cells =>
      rw [List.forall_mem_cons] at he
      exact .cons (hbox he.1 w) (ih (Nat.succ.inj hl) he.2)

theorem closed_boxes {ws : List Nat} {boxes : List (List Char)} (h : List.Forall₂ Fills ws boxes) :
    Closed boxes.flatten := by
  induction h with
  | nil => rfl
  | cons hbox _ ih => exact hbox.1.append ih

/-- Boxes in a row show the widths of their columns, and three characters each. -/
theorem visibleLength_boxes {ws : List Nat} {boxes : List (List Char)}
    (h : List.Forall₂ Fills ws boxes) (hw : ∀ w ∈ ws, 1 ≤ w) :
    visibleLength boxes.flatten = (ws.map (· + 3)).sum := by
  induction h with
  | nil => rfl
  | cons hbox _ ih =>
    rw [List.forall_mem_cons] at hw
    rw [List.flatten_cons, hbox.1.visibleLength_append, hbox.2 hw.1, ih hw.2, List.map_cons,
      List.sum_cons]

/-! ## The lines of a table -/

namespace Grid

variable {g : Grid}

/-- A line of a table, before it is fitted, is a border and a box for each column. -/
theorem exists_boxes_of_mem_rawLines (he : g.EscapeFree) (hg : g.Rectangular) {limit : Nat}
    {line : List Char} (hl : line ∈ g.rawLines limit) :
    ∃ border boxes, line = border :: boxes.flatten ∧ border ∈ ['+', '|'] ∧
      List.Forall₂ Fills (g.widths limit) boxes := by
  have hrule : List.Forall₂ Fills (g.widths limit) ((g.widths limit).map ruleBox) := by
    rw [List.forall₂_map_right_iff, List.forall₂_same]
    exact fun w _ => fills_ruleBox w
  have hlen := length_widths he hg limit
  simp only [rawLines, List.mem_append, List.mem_cons, List.mem_map, List.not_mem_nil,
    or_false] at hl
  rcases hl with (rfl | rfl | rfl | ⟨row, hr, rfl⟩) | rfl
  · exact ⟨'+', _, rfl, by decide, hrule⟩
  · refine ⟨'|', _, rfl, by decide, forall₂_fills_zipWith fills_headerBox hlen.symm ?_⟩
    exact he _ List.mem_cons_self
  · exact ⟨'+', _, rfl, by decide, hrule⟩
  · refine ⟨'|', _, rfl, by decide, forall₂_fills_zipWith fills_cellBox ?_ ?_⟩
    · rw [hg row hr, hlen]
    · exact he row (List.mem_cons_of_mem _ hr)
  · exact ⟨'+', _, rfl, by decide, hrule⟩

/-- Such a line leaves no sequence open and shows its border at least; where the terminal has a
column, it shows the width of the table. -/
theorem measures_of_mem_rawLines (he : g.EscapeFree) (hg : g.Rectangular) {limit : Nat}
    {line : List Char} (hl : line ∈ g.rawLines limit) :
    Closed line ∧ 1 ≤ visibleLength line ∧ ((∀ header ∈ g.headers, header ≠ []) → 1 ≤ limit →
      visibleLength line = g.lineWidth limit) := by
  obtain ⟨border, boxes, rfl, hborder, hboxes⟩ := exists_boxes_of_mem_rawLines he hg hl
  have hclosed : Closed [border] ∧ visibleLength [border] = 1 := by
    rw [List.mem_cons, List.mem_singleton] at hborder
    rcases hborder with rfl | rfl <;> decide
  rw [← List.singleton_append, hclosed.1.visibleLength_append, hclosed.2]
  refine ⟨hclosed.1.append (closed_boxes hboxes), by omega, fun hh hlimit => ?_⟩
  rw [visibleLength_boxes hboxes fun w hw => one_le_of_mem_widths he hg hh hlimit hw,
    widths_eq he hg, List.map_map]
  rfl

/-- All lines of a table without escape sequences are as wide as the table, or as the terminal if
that is not so wide; a terminal without columns shows the ellipsis only. -/
theorem visibleLength_of_mem_lines (he : g.EscapeFree) (hg : g.Rectangular)
    (hh : ∀ header ∈ g.headers, header ≠ []) (hr : g.rows ≠ []) {width : Nat} {line : List Char}
    (hl : line ∈ g.lines width) : visibleLength line = min (max width 1) (g.lineWidth width) := by
  rw [lines, List.isEmpty_eq_false_iff.2 hr, if_neg Bool.false_ne_true] at hl
  obtain ⟨raw, hraw, rfl⟩ := List.mem_map.1 hl
  obtain ⟨hclosed, hpos, hwidth⟩ := measures_of_mem_rawLines he hg hraw
  rw [visibleLength_fit (by rw [hclosed]; exact Within.noConfusion) hpos]
  by_cases hw : 1 ≤ width
  · rw [hwidth hh hw]
  · have hline : 1 ≤ g.lineWidth width := Nat.le_add_right 1 _
    omega

end Grid

end QueryStats.Terminal

namespace QueryStats.Clause

open Terminal

variable {c : Clause}

/-- Whether no text of a clause that is shown holds an escape character. -/
def EscapeFree (c : Clause) : Prop := ∀ text ∈ c.wordTexts ++ c.freeTexts, escape ∉ text.toList

instance (c : Clause) : Decidable c.EscapeFree := inferInstanceAs (Decidable (∀ _ ∈ _, _))

theorem rectangular_of_mem {g : Grid} (hg : g ∈ [c.aggregationGrid, c.groupingGrid]) :
    g.Rectangular := by
  rw [List.mem_cons, List.mem_singleton] at hg
  rcases hg with rfl | rfl
  · exact c.rectangular_aggregationGrid
  · exact c.rectangular_groupingGrid

theorem headers_of_mem {g : Grid} (hg : g ∈ [c.aggregationGrid, c.groupingGrid]) :
    ∀ header ∈ g.headers, header ≠ [] ∧ escape ∉ header := by
  rw [List.mem_cons, List.mem_singleton] at hg
  rcases hg with rfl | rfl
  · simp only [aggregationGrid]
    decide
  · simp only [groupingGrid]
    decide

theorem EscapeFree.grid (he : c.EscapeFree) {g : Grid}
    (hg : g ∈ [c.aggregationGrid, c.groupingGrid]) : g.EscapeFree := by
  rw [EscapeFree, List.forall_mem_append] at he
  have hrows : ∀ row ∈ g.rows, ∀ cell ∈ row, ∀ ch ∈ cell, ch ≠ escape := by
    refine forall_mem_rows ?_ (by decide) ?_ ?_ hg
    · rintro ch hd rfl
      revert hd
      decide
    · exact fun word hw ch hch h => he.1 word hw (h ▸ hch)
    · exact fun text ht ch hch h => he.2 text ht (h ▸ hch)
  rw [Grid.EscapeFree, List.forall_mem_cons]
  exact ⟨fun header hh => (headers_of_mem hg header hh).2,
    fun row hr cell hc h => hrows row hr cell hc escape h rfl⟩

theorem isInfix_lines {g : Grid} (hg : g ∈ [c.aggregationGrid, c.groupingGrid]) (width : Nat) :
    (g.lines width).map String.ofList <:+: c.lines width := by
  refine List.IsInfix.map _ ?_
  rw [List.mem_cons, List.mem_singleton] at hg
  rcases hg with rfl | rfl
  · exact ⟨["aggregations:".toList],
      "group by:".toList :: c.groupingGrid.lines width ++ [fit width c.summary.toList],
      by simp [lineChars]⟩
  · exact ⟨"aggregations:".toList :: c.aggregationGrid.lines width ++ ["group by:".toList],
      [fit width c.summary.toList], by simp [lineChars]⟩

/-- A table of a clause without escape sequences is a block of four lines and one for each row, all
of one width: the smaller of the terminal's, of which a column is always used, and of the table's,
in which a column is as wide as its longest header or cell but no wider than the terminal. -/
theorem tables_aligned (he : c.EscapeFree) {g : Grid}
    (hg : g ∈ [c.aggregationGrid, c.groupingGrid]) (hr : g.rows ≠ []) (width : Nat) :
    (g.lines width).map String.ofList <:+: c.lines width ∧
      (g.lines width).length = g.rows.length + 4 ∧
      ∀ line ∈ g.lines width, visibleLength line =
        min (max width 1)
          (1 + (g.columns.map fun column => min width (longest column) + 3).sum) := by
  refine ⟨isInfix_lines hg width, ?_, fun line hl => ?_⟩
  · rw [Grid.lines, List.isEmpty_eq_false_iff.2 hr, if_neg Bool.false_ne_true]
    simp [Grid.rawLines]
  · exact Grid.visibleLength_of_mem_lines (he.grid hg) (rectangular_of_mem hg)
      (fun header hh => (headers_of_mem hg header hh).1) hr hl

/-- A table of five columns on a terminal of ten, and on a terminal of none. -/
theorem tables_aligned_narrow :
    let c : Clause := ⟨[], ⟨["host"], some ⟨"@timestamp", "1.5", "h", "", ""⟩⟩⟩
    c.EscapeFree ∧ c.groupingGrid.rows ≠ [] ∧
      (∀ line ∈ c.groupingGrid.lines 10, visibleLength line = 10) ∧
      ∀ line ∈ c.groupingGrid.lines 0, visibleLength line = 1 := by
  intro c
  have he : c.EscapeFree := by decide +kernel
  have hr : c.groupingGrid.rows ≠ [] := by decide +kernel
  have hg : c.groupingGrid ∈ [c.aggregationGrid, c.groupingGrid] :=
    List.mem_cons_of_mem _ List.mem_cons_self
  refine ⟨he, hr, fun line hl => ?_, fun line hl => ?_⟩
  · rw [(tables_aligned he hg hr 10).2.2 line hl]
    decide +kernel
  · rw [(tables_aligned he hg hr 0).2.2 line hl]
    decide +kernel

end QueryStats.Clause
