import QueryStats.Json.Basic
import QueryStats.Number.Decimal

/-!
# JSON numbers

A number is written with a whole part, a fraction and an exponent of ten.  Without fraction and
exponent it stands for a whole number, if it is in the range of 64 bits.  All other numbers are
binary64 numbers.  They are made from a significand, a whole number of 64 bits, by one
multiplication or division by a power of ten, so that the last digit may be off.
-/

namespace QueryStats.Json

/-! ## Significands -/

def significandBound : Nat := 0x10000000000000000

/-- A significand with the digits after it that fit in, and the digits that are left.  From the
first one that does not fit in, all are left. -/
def takeDigits (n : Nat) : List Char → Nat × List Char
  | [] => (n, [])
  | c :: ds =>
    let m := 10 * n + Decimal.digitValue c
    if m < significandBound then takeDigits m ds else (n, c :: ds)

/-! ## Powers of ten -/

/-- The greatest exponent whose power of ten is finite. -/
def maxExponent : Nat := 308

/-- A power of ten as a binary64 number. -/
def power (k : Nat) : Nat := Binary64.ofNat (Nat.pow 10 k)

/-- A binary64 number divided by a power of ten, in steps of the greatest finite power. -/
def divPower (units k : Nat) : Nat :=
  if k ≤ maxExponent then Binary64.div units (power k)
  else if units = 0 then 0
  else divPower (Binary64.div units (power maxExponent)) (k - maxExponent)
termination_by k
decreasing_by simp only [maxExponent] at *; omega

/-- A binary64 number times a power of ten, if that is finite. -/
def mulPower? (units k : Nat) : Option Nat :=
  if units = 0 then some 0
  else if k ≤ maxExponent then some (Binary64.mul units (power k)) |>.filter Binary64.isFinite
  else none

/-! ## Numbers -/

/-- The binary64 number with the given digits before and after the point, times a power of ten. -/
def real? (whole part : List Char) (exponent : Int) : Option Nat :=
  let (n, wholeLeft) := takeDigits 0 whole
  let (n, partLeft) := takeDigits n part
  let exponent := exponent + wholeLeft.length + partLeft.length - part.length
  if exponent < 0 then some (divPower (Binary64.ofNat n) (-exponent).toNat)
  else mulPower? (Binary64.ofNat n) exponent.toNat

/-- Whether digits make up the whole part of a number: there is one, and no zero is in front of
others. -/
def isWhole : List Char → Bool
  | [] => false
  | c :: ds => c != '0' || ds.isEmpty

/-- The whole number with the given sign and digits, if it is in range.  There is no minus zero
among the whole numbers. -/
def integer? (negative : Bool) (whole : List Char) : Option Int :=
  let n := Decimal.ofDigits whole
  if negative then if 0 < n && n ≤ significandBound / 2 then some (-n) else none
  else if n < significandBound then some n else none

/-- The number that a text stands for. -/
def number? (t : List Char) : Option Json := do
  let (negative, t) := if t.head? = some '-' then (true, t.drop 1) else (false, t)
  let (whole, t) := t.span Char.isDigit
  guard (isWhole whole)
  if t.isEmpty then
    if let some n := integer? negative whole then return .integer n
  let (part, rest) := Decimal.splitFraction t
  guard !(t.head? = some '.' && part.isEmpty)
  return .real negative (← real? whole part (← Decimal.exponent? rest))

end QueryStats.Json
