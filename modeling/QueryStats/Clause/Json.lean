import QueryStats.Clause.Basic
import QueryStats.Json.Shape

/-!
# Stats clauses as JSON

A clause is an object whose members have names in camel case; a missing time bucket is `null`.
When an object is read, only the time bucket may be missing.
-/

namespace QueryStats

open Json

/-! ## Writing -/

def Aggregation.toJson (a : Aggregation) : Json :=
  .object [("alias", .string a.label),
    ("function", .object [("name", .string a.name), ("valueExpression", .string a.argument),
      ("percentileArgument", .string a.percentile)])]

def Bucket.toJson (b : Bucket) : Json :=
  .object [("alias", .string b.label),
    ("expression", .object [("field", .string b.field), ("literalValue", .string b.amount),
      ("timeUnit", .string b.unit), ("kind", .string b.kind)])]

def fieldToJson (name : String) : Json := .object [("name", .string name)]

def Grouping.toJson (g : Grouping) : Json :=
  .object [("fields", .array (g.fields.map fieldToJson)),
    ("span", (g.bucket.map Bucket.toJson).getD .null)]

def Clause.toJson (c : Clause) : Json :=
  .object [("aggregations", .array (c.aggregations.map Aggregation.toJson)),
    ("groupBy", c.grouping.toJson)]

/-! ## Reading -/

/-- The kind of record with the given name. -/
def recordKind (name : String) : RecordKind := ⟨"struct " ++ name, "fewer elements in array"⟩

/-- Reads the function of an aggregation, which is given without a label. -/
def Aggregation.readFunction : Reader Aggregation := fun j => do
  let texts ← readStrings (recordKind "AggregationFunction")
    ["name", "valueExpression", "percentileArgument"] j
  return {
    name := ← required "name" (texts.lookup "name")
    argument := ← required "valueExpression" (texts.lookup "valueExpression")
    percentile := ← required "percentileArgument" (texts.lookup "percentileArgument")
    label := "" }

def Aggregation.ofJson : Reader Aggregation := fun j => do
  let (label, function) ← readPair (recordKind "AggregationSpec") ("alias", readString)
    ("function", readFunction) j
  let label ← required "alias" label
  return { ← required "function" function with label }

/-- Reads the expression of a time bucket, which is given without a label. -/
def Bucket.readExpression : Reader Bucket := fun j => do
  let texts ← readStrings (recordKind "SpanExpression")
    ["field", "literalValue", "timeUnit", "kind"] j
  return {
    field := ← required "field" (texts.lookup "field")
    amount := ← required "literalValue" (texts.lookup "literalValue")
    unit := ← required "timeUnit" (texts.lookup "timeUnit")
    kind := ← required "kind" (texts.lookup "kind")
    label := "" }

def Bucket.ofJson : Reader Bucket := fun j => do
  let (label, expression) ← readPair (recordKind "SpanSpec") ("alias", readString)
    ("expression", readExpression) j
  let label ← required "alias" label
  return { ← required "expression" expression with label }

def readField : Reader String := fun j => do
  let texts ← readStrings (recordKind "Field") ["name"] j
  required "name" (texts.lookup "name")

def Grouping.ofJson : Reader Grouping := fun j => do
  let (fields, bucket) ← readPair (recordKind "GroupBySpec") ("fields", readList readField)
    ("span", readNullable Bucket.ofJson) j
  return { fields := ← required "fields" fields, bucket := bucket.join }

def Clause.ofJson : Reader Clause := fun j => do
  let (aggregations, grouping) ← readPair (recordKind "StatsClause")
    ("aggregations", readList Aggregation.ofJson) ("groupBy", Grouping.ofJson) j
  return {
    aggregations := ← required "aggregations" aggregations
    grouping := ← required "groupBy" grouping }

end QueryStats
