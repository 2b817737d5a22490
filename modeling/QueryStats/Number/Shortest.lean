import QueryStats.Number.Decimal

/-!
# Shortest text of a binary64 number

A binary64 number is written with the fewest digits that read back as the same number.  Among the
numerals with that many digits the nearest one is taken, and of two that are equally near the even
one.  The digits are searched for among the two neighbours of the number on each decimal grid, the
coarsest grid first; seventeen digits always suffice.
-/

namespace QueryStats.Binary64

/-- The power of ten of the first digit of a number other than zero. -/
def magnitude (units : Nat) : Int :=
  ((Nat.toDigits 10 (units * Nat.pow 10 340 / one)).length : Int) - 341

/-- A number divided by a power of ten, as a quotient. -/
def scaled (units : Nat) (exponent : Int) : Nat × Nat :=
  if 0 ≤ exponent then (units, one * Nat.pow 10 exponent.toNat)
  else (units * Nat.pow 10 (-exponent).toNat, one)

/-- The numeral of some significant digits that is nearest to a number among those that read back
as it. -/
def numeral? (units : Nat) (digits : Nat) : Option Decimal :=
  let exponent := magnitude units - digits + 1
  let (n, d) := scaled units exponent
  let numeral (k : Nat) : Decimal := ⟨false, k, exponent⟩
  let readsBack (k : Nat) : Bool := (numeral k).toBinary64 = units
  match readsBack (n / d), readsBack (n / d + 1) with
  | true, true => some (numeral (roundDiv n d))
  | true, false => some (numeral (n / d))
  | false, true => some (numeral (n / d + 1))
  | false, false => none

/-- The shortest numeral of a number other than zero. -/
def shortest (units : Nat) : Decimal :=
  ((List.range' 1 17).findSome? (numeral? units)).getD ⟨false, 0, 0⟩

/-- Digits without the zeros at the end. -/
def stripZeros (digits : List Char) : List Char :=
  (digits.reverse.dropWhile (· = '0')).reverse

/-- Digits with the point after the digit of the power of ten `exponent`. -/
def positional (digits : List Char) (exponent : Int) : List Char :=
  if exponent < 0 then
    '0' :: '.' :: List.replicate (-exponent - 1).toNat '0' ++ digits
  else
    let places := exponent.toNat + 1
    let whole := digits.take places ++ List.replicate (places - digits.length) '0'
    let part := digits.drop places
    whole ++ '.' :: (if part.isEmpty then ['0'] else part)

/-- Digits with the point after the first one, and the power of ten that it has. -/
def scientific (digits : List Char) (exponent : Int) : List Char :=
  let part := digits.drop 1
  let sign := if exponent < 0 then '-' else '+'
  digits.take 1 ++ (if part.isEmpty then [] else '.' :: part) ++
    'e' :: sign :: Nat.toDigits 10 exponent.natAbs

/-- The text of a number.  The point stands at its place from 10⁻⁵ on and below 10¹⁶. -/
def text (units : Nat) : List Char :=
  if units = 0 then ['0', '.', '0']
  else
    let x := shortest units
    let digits := Nat.toDigits 10 x.digits
    let exponent := x.exponent + digits.length - 1
    if -5 ≤ exponent && exponent < 16 then positional (stripZeros digits) exponent
    else scientific (stripZeros digits) exponent

end QueryStats.Binary64
