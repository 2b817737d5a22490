import QueryStats.Clause.Basic
import QueryStats.Proofs.Comments
import QueryStats.Query.Call
import QueryStats.Text.Blank

/-!
# Queries as they are written

The converse of reading: aggregations and what groups them, each name with a choice of how to spell
it, and the query text that they make up.  The types carry what a name, an argument or an amount
must satisfy to be writable, so that a value of `Call`, `Field`, `Bucket` or `Grouping` always has a
text.
-/

namespace QueryStats.Written

open Text Query

/-! ## Names -/

/-- How a name is written: as it is, or between two quotes. -/
inductive Spelling where
  | bare
  | backQuoted
  | doubleQuoted
  deriving DecidableEq, Repr

def Spelling.quote? : Spelling → Option Char
  | bare => none
  | backQuoted => some backQuote
  | doubleQuoted => some doubleQuote

/-- Whether a name can be spelled so: a bare one is a run of characters that pass a test, without a
quote and without the sign of a comment; a quoted one does not hold its quote. -/
def Spelling.Fits (isBare : Char → Bool) (s : Spelling) (name : List Char) : Prop :=
  match s.quote? with
  | none => name ≠ [] ∧ (∀ c ∈ name, isBare c = true ∧ isQuote c = false) ∧ CommentFree name
  | some q => q ∉ name

/-- A name and how it is written. -/
structure Name (isBare : Char → Bool) where
  name : List Char
  spelling : Spelling
  trimmed : trim name = name
  fits : spelling.Fits isBare name

def Name.text {isBare : Char → Bool} (n : Name isBare) : List Char :=
  match n.spelling.quote? with
  | none => n.name
  | some q => q :: (n.name ++ [q])

/-- The name of an aggregation or of a time bucket. -/
abbrev Alias := Name isAliasChar

/-- The clause that gives a name, if there is one. -/
def asClause : Option Alias → List Char
  | none => []
  | some n => " AS ".toList ++ n.text

/-- The name given, or nothing. -/
def labelOf (label : Option Alias) : String := (label.map fun n => String.ofList n.name).getD ""

/-- A field. -/
structure Field extends Name isFieldChar where
  unticked : backQuote ∉ name

/-! ## Aggregations -/

/-- An aggregation as a call in the text of a query. -/
structure Call where
  name : List Char
  argument : List Char
  label : Option Alias
  start : name.head?.any isNameStart = true
  isName : ∀ c ∈ name, isNameChar c = true
  trimmed : trim argument = argument
  balanced : Balanced argument
  noParenthesis : ∀ c ∈ faces (mask argument), isParenthesis c = false
  commentFree : CommentFree argument

def Call.text (c : Call) : List Char :=
  c.name ++ '(' :: (c.argument ++ ')' :: asClause c.label)

/-- The aggregation that the call stands for. -/
def Call.aggregation (c : Call) : Aggregation where
  name := String.ofList c.name
  argument := String.ofList c.argument
  percentile := ""
  label := labelOf c.label

/-! ## What groups them -/

/-- Whether a text is a run of digits. -/
def IsDigits (t : List Char) : Prop := t ≠ [] ∧ ∀ c ∈ t, c.isDigit = true

/-- Whether a text is a run of digits, or two of them with a point between. -/
def IsAmount (t : List Char) : Prop :=
  IsDigits t ∨ ∃ whole part, IsDigits whole ∧ IsDigits part ∧ t = whole ++ '.' :: part

/-- A time bucket. -/
structure Bucket where
  field : Field
  amount : List Char
  unit : List Char
  label : Option Alias
  isAmount : IsAmount amount
  unit_ne_nil : unit ≠ []
  isUnit : ∀ c ∈ unit, isLetter c = true

def Bucket.text (b : Bucket) : List Char :=
  "SPAN(".toList ++ (b.field.text ++ ", ".toList ++ b.amount ++ b.unit ++ ')' :: asClause b.label)

/-- The time bucket that the text stands for. -/
def Bucket.bucket (b : Bucket) : QueryStats.Bucket where
  field := String.ofList b.field.name
  amount := String.ofList b.amount
  unit := String.ofList b.unit
  kind := ""
  label := labelOf b.label

/-- An item of the list after a grouping keyword. -/
inductive Item where
  | bucket (b : Bucket)
  | field (f : Field)

def Item.text : Item → List Char
  | bucket b => b.text
  | field f => f.text

/-- Some texts in a row, a comma and a blank between two. -/
def commaList : List (List Char) → List Char
  | [] => []
  | t :: ts => t ++ ts.flatMap (", ".toList ++ ·)

/-- A time bucket, if there is one, and named fields after it. -/
structure Grouping where
  bucket : Option Bucket
  fields : List Field
  named : ∀ f ∈ fields, f.name ≠ []

/-- The items of the list that the grouping is written as. -/
def Grouping.items (g : Grouping) : List Item :=
  g.bucket.toList.map .bucket ++ g.fields.map .field

def Grouping.text (g : Grouping) : List Char := commaList (g.items.map Item.text)

/-- What the list groups by. -/
def Grouping.grouping (g : Grouping) : QueryStats.Grouping where
  fields := g.fields.map fun f => String.ofList f.name
  bucket := g.bucket.map Bucket.bucket

/-- Grouping by nothing. -/
def ungrouped : Grouping := ⟨none, [], fun _ h => nomatch h⟩

/-! ## Queries -/

/-- A list of aggregations. -/
def callList (calls : List Call) : List Char := commaList (calls.map Call.text)

/-- The keyword and the list of what to group by; nothing, when nothing groups. -/
def groupBy (g : Grouping) : List Char :=
  if g.items.isEmpty then [] else " GROUP BY ".toList ++ g.text

/-- The query that selects some aggregations from a table. -/
def select (calls : List Call) (g : Grouping) : List Char :=
  "SELECT ".toList ++ (callList calls ++ (" FROM t".toList ++ groupBy g))

/-- The query that pipes a source into a command for some aggregations. -/
def piped (command : String) (calls : List Call) (g : Grouping) : List Char :=
  "source=t | ".toList ++ (command.toList ++ ' ' :: (callList calls ++ (" by ".toList ++ g.text)))

end QueryStats.Written
