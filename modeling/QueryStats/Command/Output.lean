import QueryStats.Clause.Json
import QueryStats.Clause.OfQuery
import QueryStats.Clause.Table
import QueryStats.Command.Usage
import QueryStats.Failure

/-!
# What the command writes

The command writes the clause of a query to its standard output, as a table or as JSON, and tells of
failures on its standard error.  A table is fitted to the terminal, which is known here by its
columns only: `columns` is `none` where none of the standard streams is a terminal.
-/

namespace QueryStats.Command

/-- Text for the two output streams. -/
structure Output where
  out : String := ""
  err : String := ""
  deriving DecidableEq, Repr, Inhabited

def Output.append (a b : Output) : Output := ⟨a.out ++ b.out, a.err ++ b.err⟩

instance : Append Output := ⟨Output.append⟩

/-- The width that tables are fitted to.  Four columns of the terminal stay free, as long as that
leaves twenty. -/
def tableWidth : Option Nat → Nat
  | some columns => max (columns - 4) 20
  | none => 80

def showClause (json : Bool) (columns : Option Nat) (c : Clause) : String :=
  if json then c.toJson.pretty ++ "\n" else unlines (c.lines (tableWidth columns))

/-- The text that shows the clause of a query. -/
def showQuery (json : Bool) (columns : Option Nat) (query : String) : String :=
  showClause json columns (.ofQuery query)

/-- How a failure is told. -/
def complaint (f : Failure) : String := "error: " ++ f.display ++ "\n"

end QueryStats.Command
