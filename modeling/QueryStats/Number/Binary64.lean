/-!
# Rounding to binary64

A nonnegative binary64 number is a whole number of units of 2⁻¹⁰⁷⁴, and has at most 53 significant
bits.  The numbers are represented here by that count of units, in exact arithmetic; the counts
from 2²⁰⁹⁸ on, which is 2¹⁰²⁴, are beyond the finite numbers.
-/

namespace QueryStats.Binary64

/-- The number of units in 1. -/
def one : Nat := Nat.pow 2 1074

/-- The whole number nearest to a quotient; of two that are equally near, the even one. -/
def roundDiv (n d : Nat) : Nat :=
  if 2 * (n % d) < d then n / d
  else if d < 2 * (n % d) then n / d + 1
  else n / d + n / d % 2

/-- The binary64 number nearest to `n / d` units, exponents unbounded above; of two that are
equally near, the one with the even significand. -/
def nearest (n d : Nat) : Nat :=
  let step := Nat.pow 2 ((n / d).log2 - 52)
  roundDiv n (d * step) * step

/-- Whether a count of units is within the finite numbers. -/
def isFinite (units : Nat) : Bool := units < Nat.pow 2 2098

/-- The binary64 number nearest to a whole number. -/
def ofNat (n : Nat) : Nat := nearest (n * one) 1

/-- The product of two binary64 numbers, before overflow. -/
def mul (a b : Nat) : Nat := nearest (a * b) one

/-- The product of a binary64 number and a whole number that is one too, before overflow. -/
def mulNat (units k : Nat) : Nat := nearest (units * k) 1

/-- The quotient of two binary64 numbers, before overflow. -/
def div (a b : Nat) : Nat := nearest (a * one) b

/-- The whole number nearest to a binary64 number; a half is rounded up. -/
def round (units : Nat) : Nat := (2 * units + one) / (2 * one)

end QueryStats.Binary64
