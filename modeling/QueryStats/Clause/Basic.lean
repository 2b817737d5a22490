/-!
# Stats clauses

A stats clause is what a query asks a statistics command for: the aggregations, and what to group
them by.
-/

namespace QueryStats

/-- An aggregation: a function applied to an argument. -/
structure Aggregation where
  /-- The name of the function, in the case it was written in. -/
  name : String
  argument : String
  /-- The second argument of a percentile; queries leave it empty. -/
  percentile : String
  label : String
  deriving DecidableEq, Repr, Inhabited

/-- A time bucket: the values of a field are put together by intervals of one width. -/
structure Bucket where
  field : String
  /-- The number of units in the width, as written. -/
  amount : String
  /-- The unit of the width, as written. -/
  unit : String
  /-- The kind of the unit; queries leave it empty. -/
  kind : String
  label : String
  deriving DecidableEq, Repr, Inhabited

/-- What the results are grouped by. -/
structure Grouping where
  fields : List String
  bucket : Option Bucket
  deriving DecidableEq, Repr, Inhabited

/-- The aggregations of a query and what groups them. -/
structure Clause where
  aggregations : List Aggregation
  grouping : Grouping
  deriving DecidableEq, Repr, Inhabited

/-- What to call the result of an aggregation: its label, or else the call as written. -/
def Aggregation.title (a : Aggregation) : String :=
  if a.label.isEmpty then a.name ++ "(" ++ a.argument ++ ")" else a.label

def Bucket.width (b : Bucket) : String := b.amount ++ b.unit

/-- Whether nothing groups the results. -/
def Grouping.isEmpty (g : Grouping) : Bool := g.fields.isEmpty && g.bucket.isNone

def Clause.isEmpty (c : Clause) : Bool := c.aggregations.isEmpty && c.grouping.isEmpty

end QueryStats
