import QueryStats.Query.Quote

/-!
# Comments

A line comment runs from `--` to the end of the line, a block comment from `/*` to the matching
`*/`; block comments nest.  Neither begins inside a quoted run.  Stripping puts one blank in place
of each comment, so that the words on its two sides stay apart, and keeps the line breaks inside
it.  What is left open at the end of the text runs to the end.
-/

namespace QueryStats.Query

/-- Where a place of a query lies. -/
inductive Region where
  /-- Outside comments and quoted runs. -/
  | code
  /-- In a run that the given character opened and closes. -/
  | quoted (q : Char)
  | lineComment
  /-- In a block comment with the given number of block comments around it.  The number has no
  bound; a signed counter of 32 bits agrees with it as long as fewer than `2 ^ 31` block comments
  are open. -/
  | blockComment (depth : Nat)
  deriving DecidableEq, Repr

/-- The text from a place on, its comments stripped, given the region of the place. -/
def stripFrom : Region → List Char → List Char
  | _, [] => []
  | .code, '-' :: '-' :: t => ' ' :: stripFrom .lineComment t
  | .code, '/' :: '*' :: t => ' ' :: stripFrom (.blockComment 0) t
  | .code, c :: t => c :: stripFrom (if isQuote c then .quoted c else .code) t
  | .quoted q, c :: t => c :: stripFrom (if c = q then .code else .quoted q) t
  | .lineComment, c :: t =>
    if c = '\n' then c :: stripFrom .code t else stripFrom .lineComment t
  | .blockComment depth, '/' :: '*' :: t => stripFrom (.blockComment (depth + 1)) t
  | .blockComment depth, '*' :: '/' :: t =>
    stripFrom (match depth with | 0 => .code | outer + 1 => .blockComment outer) t
  | .blockComment depth, c :: t =>
    if c = '\n' || c = '\r' then c :: stripFrom (.blockComment depth) t
    else stripFrom (.blockComment depth) t

/-- A query with each comment replaced by one blank and the line breaks in it. -/
def stripComments (text : String) : String := String.ofList (stripFrom .code text.toList)

end QueryStats.Query
