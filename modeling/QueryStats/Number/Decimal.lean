import QueryStats.Number.Binary64

/-!
# Decimal numerals

A decimal numeral is a sign, digits with a point somewhere before, among or after them, and an
exponent of ten; the sign and the exponent may be missing, and there is at least one digit.
-/

namespace QueryStats

/-- The number `digits * 10 ^ exponent`, with a sign. -/
structure Decimal where
  /-- Whether a minus sign stands in front. -/
  negative : Bool
  /-- The digits read as a whole number. -/
  digits : Nat
  /-- The power of ten they are multiplied by. -/
  exponent : Int
  deriving DecidableEq, Repr

namespace Decimal

def digitValue (c : Char) : Nat := c.toNat - '0'.toNat

def ofDigits (ds : List Char) : Nat := ds.foldl (fun n c => 10 * n + digitValue c) 0

/-- The size of an exponent.  Once it has reached 2¹⁶, the digits that follow are left out, so that
it stays small enough to compute with. -/
def exponentOfDigits (ds : List Char) : Nat :=
  ds.foldl (fun n c => if n < 0x10000 then 10 * n + digitValue c else n) 0

/-- A sign at the front, true for a minus sign, and the text after it. -/
def splitSign : List Char → Bool × List Char
  | '-' :: t => (true, t)
  | '+' :: t => (false, t)
  | t => (false, t)

/-- The exponent that ends a numeral: nothing, or `e` and a whole number. -/
def exponent? : List Char → Option Int
  | [] => some 0
  | e :: t =>
    let (negative, ds) := splitSign t
    if e.toLower = 'e' && !ds.isEmpty && ds.all Char.isDigit then
      some (if negative then -exponentOfDigits ds else exponentOfDigits ds)
    else none

/-- The digits after a point, and the text after them. -/
def splitFraction : List Char → List Char × List Char
  | '.' :: t => t.span Char.isDigit
  | t => ([], t)

/-- The number that a text spells. -/
def ofChars? (t : List Char) : Option Decimal :=
  let (negative, t) := splitSign t
  let (whole, t) := t.span Char.isDigit
  let (part, t) := splitFraction t
  if whole.isEmpty && part.isEmpty then none
  else (exponent? t).map fun e => ⟨negative, ofDigits (whole ++ part), e - part.length⟩

/-- The binary64 number nearest to a decimal number, the sign left out. -/
def toBinary64 (x : Decimal) : Nat :=
  if 0 ≤ x.exponent then
    Binary64.nearest (x.digits * Nat.pow 10 x.exponent.toNat * Binary64.one) 1
  else Binary64.nearest (x.digits * Binary64.one) (Nat.pow 10 (-x.exponent).toNat)

end Decimal

end QueryStats
