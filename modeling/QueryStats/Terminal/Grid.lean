import QueryStats.Terminal.Visible
import QueryStats.Text.Blank

/-!
# Tables

A table has a row of headers and rows of cells.  Each column is as wide as its longest cell, but no
wider than the terminal; a cell that is longer is shortened.  Cells that look like numbers stand at
the right of their column, all others at the left, and the headers are green.  Each line of the
table is fitted to the terminal.
-/

namespace QueryStats.Terminal

structure Grid where
  headers : List (List Char)
  /-- The rows, each with a cell for each column. -/
  rows : List (List (List Char))
  deriving DecidableEq, Repr

/-- A text of at most so many characters, the last of them an ellipsis if something was cut off. -/
def shorten (width : Nat) (cell : List Char) : List Char :=
  if cell.length ≤ width then cell else cell.take (width - 1) ++ [ellipsis]

def isNumberChar (c : Char) : Bool := c.isDigit || ".-+eE,_".toList.contains c

/-- Whether a cell looks like a number: it has a digit, and nothing that a number has not. -/
def looksNumeric (cell : List Char) : Bool :=
  let t := Text.trim cell
  t.all isNumberChar && t.any Char.isDigit

/-- The blanks that fill a column beside a text. -/
def padding (width : Nat) (text : List Char) : List Char :=
  List.replicate (width - visibleLength text) ' '

/-- A cell in a column of a given width, and the border after it. -/
def cellBox (width : Nat) (cell : List Char) : List Char :=
  let text := shorten width cell
  let box :=
    if looksNumeric cell then padding width text ++ text else text ++ padding width text
  ' ' :: box ++ [' ', '|']

/-- A header in a column of a given width, and the border after it. -/
def headerBox (width : Nat) (header : List Char) : List Char :=
  let text := shorten width header
  ' ' :: green ++ text ++ plain ++ padding width text ++ [' ', '|']

/-- A rule across a column of a given width, and the corner after it. -/
def ruleBox (width : Nat) : List Char := List.replicate (width + 2) '-' ++ ['+']

def rowLine (widths : List Nat) (cells : List (List Char)) : List Char :=
  '|' :: (List.zipWith cellBox widths cells).flatten

def headerLine (widths : List Nat) (headers : List (List Char)) : List Char :=
  '|' :: (List.zipWith headerBox widths headers).flatten

/-- The line between parts of a table. -/
def ruleLine (widths : List Nat) : List Char := '+' :: widths.flatMap ruleBox

namespace Grid

/-- The widths of the columns if none may be wider than a limit. -/
def widths (g : Grid) (limit : Nat) : List Nat :=
  let longest := g.rows.foldl (fun ws row => List.zipWith max ws (row.map visibleLength))
    (g.headers.map visibleLength)
  longest.map (min limit)

/-- The lines of a table before they are fitted to the terminal. -/
def rawLines (g : Grid) (width : Nat) : List (List Char) :=
  let ws := g.widths width
  let rule := ruleLine ws
  rule :: headerLine ws g.headers :: rule :: g.rows.map (rowLine ws) ++ [rule]

/-- The lines of a table on a terminal of a given width; a table without rows is one line. -/
def lines (g : Grid) (width : Nat) : List (List Char) :=
  if g.rows.isEmpty then ["  (none)".toList] else (g.rawLines width).map (fit width)

end Grid

end QueryStats.Terminal
