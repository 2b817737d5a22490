/-!
# JSON values

A JSON value; its objects are lists of members in the order they stand in.  A number is a whole
number or, as all others are, a binary64 number.
-/

namespace QueryStats

/-- A JSON value. -/
inductive Json where
  | null
  | bool (b : Bool)
  /-- A whole number. -/
  | integer (n : Int)
  /-- A binary64 number, as a sign and a count of units of 2⁻¹⁰⁷⁴. -/
  | real (negative : Bool) (units : Nat)
  | string (s : String)
  | array (items : List Json)
  | object (members : List (String × Json))
  deriving Repr, Inhabited

end QueryStats
