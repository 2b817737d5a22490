import QueryStats.Query.Token

/-!
# Time buckets

A time bucket is written `SPAN(field, amount unit)`, possibly with an `AS` clause.  The amount is
digits with an optional fraction, the unit a run of letters; white space may stand between any two
parts.
-/

namespace QueryStats.Query

open Text

/-- A time bucket as written. -/
structure Bucketing where
  field : List Cell
  amount : List Cell
  unit : List Cell
  label : Option (List Cell)
  deriving DecidableEq, Repr

/-- A point and the digits after it; both or none. -/
def fraction (t : List Cell) : List Cell × List Cell :=
  match (skipChar? '.' t).bind (run? Char.isDigit), t with
  | some (digits, rest), point :: _ => (point :: digits, rest)
  | _, _ => ([], t)

/-- Digits, possibly with a fraction. -/
def amount? (t : List Cell) : Option (List Cell × List Cell) := do
  let (whole, rest) ← run? Char.isDigit t
  let (part, rest) := fraction rest
  return (whole ++ part, rest)

/-- A time bucket at the front. -/
def bucketing? (t : List Cell) : Option (Bucketing × List Cell) := do
  let t ← skipKeyword? "span" t
  let t ← skipChar? '(' (skipBlanks t)
  let (field, t) ← field? (skipBlanks t)
  let t ← skipChar? ',' (skipBlanks t)
  let (amount, t) ← amount? (skipBlanks t)
  let (unit, t) ← run? isLetter (skipBlanks t)
  let t ← skipChar? ')' (skipBlanks t)
  let (label, t) := optionalAlias t
  return (⟨field, amount, unit, label⟩, t)

end QueryStats.Query
