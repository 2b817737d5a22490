import QueryStats.Clause.Basic
import QueryStats.Number.Decimal
import QueryStats.Interval.TimeUnit

/-!
# The width of a time bucket

The width of a time bucket whose unit is fixed is a whole number of milliseconds.  The amount is
taken as a binary64 number and multiplied by the width of the unit in binary64 arithmetic; the
product is rounded to a whole number, halves up, and is at most 2⁶³ - 1.
-/

namespace QueryStats

/-- The longest width. -/
def maxWidth : Nat := 0x7fffffffffffffff

/-- An amount as a binary64 number; `none` for a text that is no numeral, or whose number is not
finite or is negative.  A minus sign before zero is no harm. -/
def amountValue? (text : List Char) : Option Nat := do
  let x ← Decimal.ofChars? (Text.trim text)
  let units := x.toBinary64
  if Binary64.isFinite units && !(x.negative && units != 0) then some units else none

/-- The width in milliseconds of an amount of a unit that is so many milliseconds wide. -/
def widthOf (units perUnit : Nat) : Nat :=
  min (Binary64.round (Binary64.mulNat units perUnit)) maxWidth

/-- The width in milliseconds of an amount of a unit; `none` if the unit has no fixed width or the
amount is no number. -/
def fixedWidth? (amount unit : List Char) : Option Nat := do
  let perUnit ← (← TimeUnit.ofChars? unit).milliseconds?
  let units ← amountValue? amount
  return widthOf units perUnit

namespace Bucket

/-- The unit of a bucket, if its spelling is known. -/
def timeUnit? (b : Bucket) : Option TimeUnit := TimeUnit.ofText? b.unit

/-- Whether a bucket follows the calendar. -/
def isCalendar (b : Bucket) : Bool := b.timeUnit?.any TimeUnit.isCalendar

/-- The width of a bucket in milliseconds, if it is fixed. -/
def milliseconds? (b : Bucket) : Option Nat := fixedWidth? b.amount.toList b.unit.toList

end Bucket

end QueryStats
