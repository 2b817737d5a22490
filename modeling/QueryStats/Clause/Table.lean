import QueryStats.Clause.Basic
import QueryStats.Terminal.Grid

/-!
# Stats clauses on a terminal

A clause is shown as a table of its aggregations, a table of what they are grouped by, with the time
bucket first, and a line that counts both.  The rows of a table are numbered from 1.
-/

namespace QueryStats

open Terminal

namespace Clause

/-- Rows with their numbers as a first cell. -/
def numbered (rows : List (List String)) : List (List (List Char)) :=
  rows.zipIdx.map fun (row, i) => (toString (i + 1)).toList :: row.map String.toList

def aggregationGrid (c : Clause) : Grid where
  headers := ["#", "label", "function", "value_expression"].map String.toList
  rows := numbered (c.aggregations.map fun a => [a.title, a.name, a.argument])

def groupingGrid (c : Clause) : Grid where
  headers := ["#", "kind", "field", "alias", "interval"].map String.toList
  rows := numbered
    (c.grouping.bucket.toList.map (fun b => ["span", b.field, b.label, b.width]) ++
      c.grouping.fields.map fun f => ["field", f, "", ""])

/-- The line that counts the aggregations and the fields. -/
def summary (c : Clause) : String :=
  "aggregations: " ++ toString c.aggregations.length ++
    ", group fields: " ++ toString c.grouping.fields.length ++
    ", span: " ++ (c.grouping.bucket.map Bucket.width).getD "none"

/-- The lines that show a clause on a terminal of a given width, as lists of characters. -/
def lineChars (c : Clause) (width : Nat) : List (List Char) :=
  "aggregations:".toList :: c.aggregationGrid.lines width ++
    "group by:".toList :: c.groupingGrid.lines width ++ [fit width c.summary.toList]

/-- The lines that show a clause on a terminal of a given width. -/
def lines (c : Clause) (width : Nat) : List String := (c.lineChars width).map String.ofList

end Clause

end QueryStats
