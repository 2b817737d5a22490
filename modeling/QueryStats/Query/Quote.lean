/-!
# Quote characters

Three characters open a quoted run of a query: `'`, `"` and the back quote.  A run lasts until the
same character comes again; nothing inside it escapes.
-/

namespace QueryStats.Query

/-- The double quote. -/
abbrev doubleQuote : Char := '\x22'

/-- The back quote. -/
abbrev backQuote : Char := '\x60'

/-- Whether a character opens a quoted run. -/
def isQuote (c : Char) : Bool := c = '\x27' || c = doubleQuote || c = backQuote

end QueryStats.Query
