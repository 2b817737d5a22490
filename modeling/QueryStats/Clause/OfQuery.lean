import QueryStats.Clause.Basic
import QueryStats.Query.Comment
import QueryStats.Query.Name
import QueryStats.Query.Reading

/-!
# The stats clause of a query

Every text has a stats clause: what is not understood is passed over.  Comments are stripped, quoted
text is masked, and the masked text is read into pieces.  The aggregations and the fields stand in
the order of the pieces; of several time buckets the last one counts.
-/

namespace QueryStats

namespace Query

/-- The text that some cells stand for. -/
def sourceText (cells : List Cell) : String := String.ofList (sources cells)

/-- The name that an optional label spells, or nothing. -/
def labelName (label : Option (List Cell)) : String :=
  (label.map fun cells => String.ofList (unquoteChars (sources cells))).getD ""

/-- The aggregation that a call asks for. -/
def Call.aggregation (c : Call) : Aggregation where
  name := sourceText c.name
  argument := String.ofList (Text.trim (sources c.argument))
  percentile := ""
  label := labelName c.label

/-- The name that a field as written spells, unless it is empty. -/
def groupField? (cells : List Cell) : Option String :=
  match fieldNameChars (sources cells) with
  | [] => none
  | name => some (String.ofList name)

/-- The time bucket that a query asks for. -/
def Bucketing.bucket (b : Bucketing) : Bucket where
  field := String.ofList (fieldNameChars (sources b.field))
  amount := sourceText b.amount
  unit := sourceText b.unit
  kind := ""
  label := labelName b.label

end Query

open Query

/-- The stats clause of a query read into pieces. -/
def Clause.ofPieces (ps : List Piece) : Clause where
  aggregations := (ps.filterMap Piece.requested?).map Call.aggregation
  grouping :=
    { fields := (ps.filterMap Piece.field?).filterMap groupField?
      bucket := (ps.filterMap Piece.bucketing?).getLast?.map Bucketing.bucket }

/-- The stats clause of a query without comments. -/
def Clause.ofChars (t : List Char) : Clause := .ofPieces (pieces (mask t))

/-- The stats clause of a query. -/
def Clause.ofQuery (query : String) : Clause := .ofChars (stripFrom .code query.toList)

end QueryStats
