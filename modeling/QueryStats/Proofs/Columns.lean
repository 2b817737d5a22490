import Mathlib.Algebra.Order.BigOperators.Group.List
import Mathlib.Algebra.Order.Group.Nat
import Mathlib.Data.List.Forall2
import QueryStats.Proofs.Fitting

/-!
# Columns on a wide terminal

On a terminal that is wide enough, a column is as wide as its longest header or cell shows
(`naturalWidths`) and no row is cut.  A cell without escape sequences shows all its characters, so
it is not shortened either: it stands in its row as it is (`Grid.exists_line_of_mem`).
-/

namespace QueryStats.Terminal

/-! ## Texts without escape sequences -/

/-- Every character of a text without escape sequences is visible. -/
theorem visibleLength_of_notMem {t : List Char} (h : escape ∉ t) : visibleLength t = t.length := by
  change visibleFrom .text t = t.length
  induction t with
  | nil => rfl
  | cons c t ih =>
    rw [List.mem_cons, not_or] at h
    rw [visibleFrom_cons, Within.next_text (Ne.symm h.1), ih h.2]
    rfl

/-! ## Cells in columns that hold them -/

/-- Whether each cell is shown by a column of its own that is wide enough. -/
def Fits (cells : List (List Char)) (widths : List Nat) : Prop :=
  List.Forall₂ (fun cell w => visibleLength cell ≤ w) cells widths

/-- Columns as wide as before, or wide enough for one more row. -/
def widen (ws : List Nat) (row : List (List Char)) : List Nat :=
  List.zipWith max ws (row.map visibleLength)

theorem length_widen {ws : List Nat} {row : List (List Char)} (h : row.length = ws.length) :
    (widen ws row).length = ws.length := by
  simp [widen, h]

/-- Cells still fit in columns that were widened. -/
theorem Fits.widen {cells row : List (List Char)} {ws : List Nat} (h : Fits cells ws)
    (hr : row.length = ws.length) : Fits cells (widen ws row) := by
  induction h generalizing row with
  | nil =>
    rw [List.length_eq_zero_iff.1 hr]
    exact .nil
  | cons hc _ ih =>
    cases row with
    | nil => cases hr
    | cons cell row => exact .cons (Nat.le_trans hc (Nat.le_max_left _ _)) (ih (Nat.succ.inj hr))

/-- The row that columns were widened for fits in them. -/
theorem fits_widen {ws : List Nat} {row : List (List Char)} (h : row.length = ws.length) :
    Fits row (widen ws row) := by
  induction ws generalizing row with
  | nil =>
    rw [List.length_eq_zero_iff.1 h]
    exact .nil
  | cons w ws ih =>
    cases row with
    | nil => cases h
    | cons cell row => exact .cons (Nat.le_max_right _ _) (ih (Nat.succ.inj h))

theorem Fits.foldl {cells : List (List Char)} {rows : List (List (List Char))} {ws : List Nat}
    (h : Fits cells ws) (hr : ∀ row ∈ rows, row.length = ws.length) :
    Fits cells (rows.foldl Terminal.widen ws) := by
  induction rows generalizing ws with
  | nil => exact h
  | cons row rows ih =>
    rw [List.forall_mem_cons] at hr
    refine ih (h.widen hr.1) fun other ho => ?_
    rw [length_widen hr.1, hr.2 other ho]

/-- Every row fits in columns that were widened for all of them. -/
theorem fits_foldl {rows : List (List (List Char))} {ws : List Nat}
    (hr : ∀ row ∈ rows, row.length = ws.length) {row : List (List Char)} (h : row ∈ rows) :
    Fits row (rows.foldl widen ws) := by
  induction rows generalizing ws with
  | nil => cases h
  | cons first rows ih =>
    rw [List.forall_mem_cons] at hr
    have hrest : ∀ other ∈ rows, other.length = (widen ws first).length := fun other ho => by
      rw [length_widen hr.1, hr.2 other ho]
    rcases List.mem_cons.1 h with rfl | h
    · exact (fits_widen hr.1).foldl hrest
    · exact ih hrest h

/-- A cell without escape sequences stands as it is in a column that holds it. -/
theorem subset_cellBox {cell : List Char} {w : Nat} (h : visibleLength cell ≤ w)
    (he : escape ∉ cell) : cell ⊆ cellBox w cell := by
  rw [visibleLength_of_notMem he] at h
  simp only [cellBox, shorten, if_pos h]
  intro c hc
  split <;> simp [hc]

theorem subset_rowLine {cells : List (List Char)} {ws : List Nat} (h : Fits cells ws)
    {cell : List Char} (hc : cell ∈ cells) (he : escape ∉ cell) : cell ⊆ rowLine ws cells := by
  induction h with
  | nil => cases hc
  | @cons first w cells ws hw _ ih =>
    intro c hm
    rw [rowLine, List.zipWith_cons_cons, List.flatten_cons, List.mem_cons, List.mem_append]
    rcases List.mem_cons.1 hc with rfl | hc
    · exact Or.inr (Or.inl (subset_cellBox hw he hm))
    · rcases List.mem_cons.1 (ih hc hm) with rfl | h
      · exact Or.inl rfl
      · exact Or.inr (Or.inr h)

/-! ## The lines of a wide table -/

namespace Grid

/-- The widths of the columns where the terminal does not limit them. -/
def naturalWidths (g : Grid) : List Nat := g.rows.foldl widen (g.headers.map visibleLength)

theorem widths_of_wide {g : Grid} {limit : Nat} (h : ∀ w ∈ g.naturalWidths, w ≤ limit) :
    g.widths limit = g.naturalWidths := by
  change g.naturalWidths.map (min limit) = g.naturalWidths
  conv_rhs => rw [← List.map_id g.naturalWidths]
  exact List.map_congr_left fun w hw => Nat.min_eq_right (h w hw)

/-- Whether each row has a cell for each column. -/
def Rectangular (g : Grid) : Prop := ∀ row ∈ g.rows, row.length = g.headers.length

theorem Rectangular.fits {g : Grid} (hg : g.Rectangular) {row : List (List Char)}
    (hr : row ∈ g.rows) : Fits row g.naturalWidths :=
  fits_foldl (fun other ho => by rw [hg other ho, List.length_map]) hr

/-- A row is a line of the table where neither its columns nor the line are limited. -/
theorem rowLine_mem_lines {g : Grid} {width : Nat} {row : List (List Char)} (hr : row ∈ g.rows)
    (hn : ∀ w ∈ g.naturalWidths, w ≤ width)
    (hl : visibleLength (rowLine g.naturalWidths row) ≤ width) :
    rowLine g.naturalWidths row ∈ g.lines width := by
  have hne : g.rows.isEmpty = false := by
    rw [List.isEmpty_eq_false_iff]
    exact List.ne_nil_of_mem hr
  rw [lines, hne, if_neg Bool.false_ne_true, rawLines, widths_of_wide hn]
  refine List.mem_map.2 ⟨rowLine g.naturalWidths row, ?_, if_pos hl⟩
  simp only [List.mem_cons, List.mem_append, List.mem_map]
  exact Or.inl (Or.inr (Or.inr (Or.inr ⟨row, hr, rfl⟩)))

/-- A cell without escape sequences stands in some line of the table as it is, if the terminal is
wide enough. -/
theorem exists_line_of_mem {g : Grid} (hg : g.Rectangular) {row : List (List Char)}
    (hr : row ∈ g.rows) {cell : List Char} (hc : cell ∈ row) (he : escape ∉ cell) :
    ∃ width, ∃ line ∈ g.lines width, cell ⊆ line := by
  let line := rowLine g.naturalWidths row
  refine ⟨g.naturalWidths.sum + visibleLength line, line, rowLine_mem_lines hr ?_ ?_, ?_⟩
  · intro w hw
    exact Nat.le_trans (List.le_sum_of_mem hw) (Nat.le_add_right _ _)
  · exact Nat.le_add_left _ _
  · exact subset_rowLine (hg.fits hr) hc he

end Grid

end QueryStats.Terminal
