import Deduction.Decimal.Double

/-!
The decimal with the fewest digits that reads back as a given double-precision number.

The decimals that read back form an interval around the number, which is compared in exact
arithmetic. For each number of digits only the two neighbours on that decimal grid can qualify.
-/

namespace Deduction.Decimal

/-- The decimal `digits * 10 ^ power`. -/
structure Scientific where
  digits : Nat
  power : Int
  deriving DecidableEq, Repr

/-- The decimals that read back as `mantissa * 2 ^ exponent`, in units of `2 ^ (exponent - 2)`. -/
structure Rounding where
  lower : Nat
  value : Nat
  upper : Nat
  closed : Bool
  exponent : Int

/-- Below a power of two the neighbouring numbers are twice as dense. The ends of the interval
belong to it when ties go to this mantissa. -/
def Rounding.around (mantissa : Nat) (exponent : Int) : Rounding :=
  let narrow := mantissa = Nat.pow 2 52 ∧ Double.minExponent < exponent
  { lower := 4 * mantissa - (if narrow then 1 else 2)
    value := 4 * mantissa
    upper := 4 * mantissa + 2
    closed := mantissa % 2 = 0
    exponent := exponent - 2 }

/-- `digits * 10 ^ power` and `units * 2 ^ r.exponent` over a common denominator. -/
def Rounding.common (r : Rounding) (s : Scientific) (units : Nat) : Nat × Nat :=
  (s.digits * Nat.pow 10 s.power.toNat * Nat.pow 2 (-r.exponent).toNat,
    units * Nat.pow 2 r.exponent.toNat * Nat.pow 10 (-s.power).toNat)

def Rounding.contains (r : Rounding) (s : Scientific) : Bool :=
  let (a, low) := r.common s r.lower
  let (b, high) := r.common s r.upper
  if r.closed then low ≤ a && b ≤ high else low < a && b < high

/-- The distance of a decimal from the number, in a unit that depends on the power only. -/
def Rounding.distance (r : Rounding) (s : Scientific) : Nat :=
  let (a, v) := r.common s r.value
  (a - v) + (v - a)

/-- The power of ten of the leading digit of the number. -/
def Rounding.leading (r : Rounding) : Int :=
  let num := r.value * Nat.pow 2 r.exponent.toNat
  let den := Nat.pow 2 (-r.exponent).toNat
  let guess := (digitCount num : Int) - digitCount den
  let (n, d) := divPow num den 10 guess
  if d ≤ n then guess else guess - 1

/-- The better of the two neighbours with a last digit at `power`, if one of them reads back. Of two
equally near ones the even one is taken. -/
def Rounding.pick? (r : Rounding) (power : Int) : Option Scientific :=
  let num := r.value * Nat.pow 2 r.exponent.toNat
  let den := Nat.pow 2 (-r.exponent).toNat
  let (n, d) := divPow num den 10 power
  let below : Scientific := ⟨n / d, power⟩
  let above : Scientific := ⟨n / d + 1, power⟩
  match r.contains below, r.contains above with
  | true, true =>
      if r.distance below < r.distance above then some below
      else if r.distance above < r.distance below then some above
      else if below.digits % 2 = 0 then some below else some above
  | true, false => some below
  | false, true => some above
  | false, false => none

/-- Take trailing zeros off the digits; `fuel` bounds their number. -/
def Scientific.stripZeros : (fuel : Nat) → Scientific → Scientific
  | 0, s => s
  | fuel + 1, s =>
      if s.digits ≠ 0 ∧ s.digits % 10 = 0 then stripZeros fuel ⟨s.digits / 10, s.power + 1⟩ else s

/-- The shortest decimal that reads back as `mantissa * 2 ^ exponent`, for a positive mantissa.
Seventeen digits always suffice. -/
def shortest (mantissa : Nat) (exponent : Int) : Scientific :=
  let r := Rounding.around mantissa exponent
  let powers := (List.range 17).map fun (count : Nat) => r.leading - (count : Int)
  match powers.findSome? r.pick? with
  | some s => s.stripZeros 17
  | none => ⟨0, 0⟩

/-- How a number is written: the powers of its leading digit for which it has no exponent part. -/
structure Layout where
  leastPositional : Int
  greatestPositional : Int

/-- Digits around a decimal point, with at least one digit on each side. -/
def positional (digits : List Char) (leading : Int) : List Char :=
  if leading < 0 then
    '0' :: '.' :: List.replicate (-leading - 1).toNat '0' ++ digits
  else
    let whole := leading.toNat + 1
    let padded := digits ++ List.replicate (whole - digits.length) '0'
    let fraction := padded.drop whole
    padded.take whole ++ '.' :: (if fraction.isEmpty then ['0'] else fraction)

/-- Digits with the point after the first of them and a signed exponent of two digits or more. -/
def exponential (digits : List Char) (leading : Int) : List Char :=
  let size := Nat.toDigits 10 leading.natAbs
  let point := if digits.length ≤ 1 then digits else digits.take 1 ++ '.' :: digits.drop 1
  point ++ 'e' :: (if leading < 0 then '-' else '+') ::
    (List.replicate (2 - size.length) '0' ++ size)

def Layout.text (layout : Layout) (s : Scientific) : List Char :=
  let digits := Nat.toDigits 10 s.digits
  let leading := s.power + digits.length - 1
  if layout.leastPositional ≤ leading ∧ leading ≤ layout.greatestPositional then
    positional digits leading
  else
    exponential digits leading

end Deduction.Decimal
