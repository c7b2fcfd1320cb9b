/-!
How deeply formulas, texts and values may be nested.

Whoever goes through nested things by recursion gives up where they go deeper than the stack. How
deep that is depends on how much of the stack is in use already, so every place has a limit of its
own. Nothing is assumed of the limits.
-/

namespace Deduction

class Limits where
  /-- Parentheses and implications of an infix text that are open at once. -/
  parsing : Nat
  /-- Containers inside each other in a Json text that is read. -/
  reading : Nat
  /-- The height of a formula that is decoded from a Json value. -/
  decoding : Nat
  /-- The height of a formula that is printed in infix form, or whose leaves are gone through. -/
  rendering : Nat
  /-- The height of a formula in a message. -/
  describing : Nat
  /-- The height of formulas that are compared. -/
  comparing : Nat
  /-- Containers inside each other in a value that is quoted as the given field of a script. -/
  quoting : (field : String) → Nat
  /-- The height of the formula that a report shows as proved. -/
  reporting : Nat
  /-- The height of the formula that a Json report holds as its conclusion. -/
  encoding : Nat

/-- One limit everywhere. -/
@[reducible]
def Limits.uniform (limit : Nat) : Limits where
  parsing := limit
  reading := limit
  decoding := limit
  rendering := limit
  describing := limit
  comparing := limit
  quoting _ := limit
  reporting := limit
  encoding := limit

end Deduction
