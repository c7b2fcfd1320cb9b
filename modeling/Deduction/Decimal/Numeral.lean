import Deduction.Decimal.Double

/-!
Numbers by their exact values, so that integers of any size and double-precision numbers can be
compared with one another.
-/

namespace Deduction.Decimal

/-- The value of a number: a fraction with a positive denominator, or none that is finite. -/
inductive Numeral where
  | nan
  | infinite (negative : Bool)
  | fraction (num : Int) (den : Nat)
  deriving DecidableEq, Repr

namespace Numeral

def ofInt (value : Int) : Numeral := .fraction value 1

def ofDouble : Double → Numeral
  | .nan => .nan
  | .infinite negative => .infinite negative
  | .finite negative mantissa exponent =>
      let (num, den) := divPow mantissa 1 2 (-exponent)
      .fraction (if negative then -num else num) den

/-- Whether one number is below another. Nothing is below `nan`, or above it. -/
def lt : Numeral → Numeral → Bool
  | .fraction a b, .fraction c d => a * d < c * b
  | .fraction _ _, .infinite negative => !negative
  | .infinite negative, .fraction _ _ => negative
  | .infinite a, .infinite b => a && !b
  | _, _ => false

/-- Whether two numbers have one value; `nan` has none. -/
def same : Numeral → Numeral → Bool
  | .fraction a b, .fraction c d => a * d == c * b
  | .infinite a, .infinite b => a == b
  | _, _ => false

def le (x y : Numeral) : Bool := x.lt y || x.same y

end Numeral

end Deduction.Decimal
