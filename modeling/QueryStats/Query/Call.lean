import QueryStats.Query.Token

/-!
# Calls

A call is a name directly followed by a parenthesised argument without parentheses in it, and
possibly an `AS` clause.  Whether a call asks for an aggregation is told by what stands around it.
-/

namespace QueryStats.Query

open Text

/-- A call as written. -/
structure Call where
  name : List Cell
  argument : List Cell
  label : Option (List Cell)
  deriving DecidableEq, Repr

/-- Whether a character may start the name of a function. -/
def isNameStart (c : Char) : Bool := isLetter c || c = '_'

/-- Whether a character may stand in the name of a function. -/
def isNameChar (c : Char) : Bool := isNameStart c || c.isDigit

def isParenthesis (c : Char) : Bool := c = '(' || c = ')'

/-- A call at the front, whose name starts there. -/
def call? (t : List Cell) : Option (Call × List Cell) := do
  let (name, rest) ← run? isNameChar t
  if !(name.head?.any (isNameStart ·.face)) then none else
  let rest ← skipChar? '(' rest
  let argument := rest.takeWhile (!isParenthesis ·.face)
  let rest ← skipChar? ')' (rest.dropWhile (!isParenthesis ·.face))
  let (label, rest) := optionalAlias rest
  return (⟨name, argument, label⟩, rest)

/-- Whether a list of aggregations may go on or end here: after white space comes a comma, a pipe,
a semicolon, the keyword `FROM` or `BY`, or nothing. -/
def endsItem (rest : List Cell) : Bool :=
  match skipBlanks rest with
  | [] => true
  | x :: t =>
    x.face = ',' || x.face = '|' || x.face = ';' ||
      startsWithKeywordBy Cell.face "from".toList (x :: t) ||
      startsWithKeywordBy Cell.face "by".toList (x :: t)

/-- The words after which a call is an operand of a condition. -/
def conditionWords : List String :=
  ["where", "and", "or", "not", "having", "on", "when", "then", "else", "in", "is", "like"]

/-- Whether the word before a place is one of the given words, ASCII letters compared without case.
The text before the place is given backwards. -/
def follows (words : List String) (before : List Char) : Bool :=
  words.any fun word => eqIgnoreCase (wordBefore before) word.toList

/-- Whether a call between two texts asks for an aggregation: it ends an item of a list and is no
operand of a condition. -/
def isRequested (before : List Char) (rest : List Cell) : Bool :=
  endsItem rest && !follows conditionWords before

end QueryStats.Query
