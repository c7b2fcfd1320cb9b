/-!
Double-precision numbers as exact values, and the number nearest to a decimal.

A finite number is `mantissa * 2 ^ exponent` with a mantissa below `2 ^ 53` and an exponent from
`-1074` to `971`. Its mantissa is at least `2 ^ 52` unless the exponent is the least one, so every
number but zero has one form. Zero keeps its sign.
-/

namespace Deduction.Decimal

inductive Double where
  | nan
  | infinite (negative : Bool)
  | finite (negative : Bool) (mantissa : Nat) (exponent : Int)
  deriving DecidableEq, Repr, Inhabited

/-- The quotient rounded to the nearest integer, a half going to the even neighbour. -/
def roundDiv (num den : Nat) : Nat :=
  let quotient := num / den
  let rest := num % den
  if 2 * rest < den then quotient
  else if den < 2 * rest then quotient + 1
  else quotient + quotient % 2

/-- The fraction `num / den / base ^ power`, as a numerator and a denominator. -/
def divPow (num den base : Nat) (power : Int) : Nat × Nat :=
  (num * Nat.pow base (-power).toNat, den * Nat.pow base power.toNat)

def digitCount (n : Nat) : Nat := (Nat.toDigits 10 n).length

namespace Double

def minExponent : Int := -1074

def maxExponent : Int := 971

/-- The binary exponent at which the positive fraction `num / den` has a mantissa of 53 bits, or the
least exponent if it has fewer bits there. -/
def exponentOf (num den : Nat) : Int :=
  let guess := max ((num.log2 : Int) - den.log2 - 53) minExponent
  let (n, d) := divPow num den 2 guess
  if Nat.pow 2 53 ≤ n / d then guess + 1 else guess

/-- The number nearest to the positive fraction `num / den`. -/
def ofFraction (negative : Bool) (num den : Nat) : Double :=
  let exponent := exponentOf num den
  let (n, d) := divPow num den 2 exponent
  let mantissa := roundDiv n d
  let (mantissa, exponent) :=
    if mantissa = Nat.pow 2 53 then (Nat.pow 2 52, exponent + 1) else (mantissa, exponent)
  if maxExponent < exponent then .infinite negative else .finite negative mantissa exponent

/-- The number nearest to `digits * 10 ^ power`. Magnitudes that are certain to overflow or to
vanish are settled without computing the power. -/
def ofDecimal (negative : Bool) (digits : Nat) (power : Int) : Double :=
  let magnitude := (digitCount digits : Int) + power
  if digits = 0 ∨ magnitude < -330 then .finite negative 0 minExponent
  else if 310 < magnitude then .infinite negative
  else
    let (num, den) := divPow digits 1 10 (-power)
    ofFraction negative num den

end Double

end Deduction.Decimal
