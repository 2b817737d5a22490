import QueryStats.Query.Quote
import QueryStats.Text.Blank

/-!
# Names

A name in a query may stand in double quotes or back quotes and between white space.  An alias
loses one layer of quotes of either kind; a field loses one layer of double quotes and every back
quote.  White space goes before and after.
-/

namespace QueryStats.Query

open Text

/-- What stands between two equal quotes at the two ends of a text. -/
def peel? (q : Char) : List Char → Option (List Char)
  | [] => none
  | c :: t => if c = q && t.getLast? = some q then some t.dropLast else none

/-- The name that an alias spells, as a list of characters. -/
def unquoteChars (raw : List Char) : List Char :=
  let t := trim raw
  trim (((peel? backQuote t).or (peel? doubleQuote t)).getD t)

/-- The name that a group field spells, as a list of characters; it may be empty. -/
def fieldNameChars (raw : List Char) : List Char :=
  let t := trim raw
  trim (((peel? doubleQuote t).getD t).filter (· != backQuote))

/-- The name that an alias spells, one layer of back quotes or double quotes taken off. -/
def unquote (raw : String) : String := String.ofList (unquoteChars raw.toList)

/-- The name that a group field spells, one layer of double quotes and all back quotes taken off. -/
def fieldName (raw : String) : String := String.ofList (fieldNameChars raw.toList)

end QueryStats.Query
