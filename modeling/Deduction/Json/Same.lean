import Deduction.Decimal.Numeral
import Deduction.Json.Basic

/-!
Equality of Json values.

By meaning, numbers are compared by value, a truth value counts as zero or one, and the order of the
fields of an object does not matter. In writing, all of this makes a difference.
-/

namespace Deduction.Json

/-- The value that a number or a truth value counts as. -/
def numeral? : Json → Option Decimal.Numeral
  | .bool value => some (.ofInt (if value then 1 else 0))
  | .int value => some (.ofInt value)
  | .real value => some (.ofDouble value)
  | _ => none

def sameNumber (a b : Json) : Bool :=
  match a.numeral?, b.numeral? with
  | some x, some y => x.same y
  | _, _ => false

mutual

def same : Json → Json → Bool
  | .null, .null => true
  | .str a, .str b => a == b
  | .arr as, .arr bs => sameItems as bs
  | .obj fs, .obj gs => fs.length == gs.length && sameFields fs gs
  | a, b => sameNumber a b

def sameItems : List Json → List Json → Bool
  | [], [] => true
  | a :: as, b :: bs => same a b && sameItems as bs
  | _, _ => false

def sameFields : List (Text × Json) → List (Text × Json) → Bool
  | [], _ => true
  | (key, a) :: fs, gs =>
      (match Ordered.find? key gs with
        | some b => same a b
        | none => false) && sameFields fs gs

end

mutual

/-- Equality in writing: values of one kind with the same parts in the same order. -/
def alike : Json → Json → Bool
  | .null, .null => true
  | .bool a, .bool b => a == b
  | .int a, .int b => a == b
  | .real a, .real b => decide (a = b)
  | .str a, .str b => a == b
  | .arr as, .arr bs => alikeItems as bs
  | .obj fs, .obj gs => alikeFields fs gs
  | _, _ => false

def alikeItems : List Json → List Json → Bool
  | [], [] => true
  | a :: as, b :: bs => alike a b && alikeItems as bs
  | _, _ => false

def alikeFields : List (Text × Json) → List (Text × Json) → Bool
  | [], [] => true
  | (key, a) :: fs, (name, b) :: gs => key == name && alike a b && alikeFields fs gs
  | _, _ => false

end

mutual

theorem alike_self : (value : Json) → alike value value = true
  | .null => rfl
  | .bool a => by simp [alike]
  | .int a => by simp [alike]
  | .real a => by simp [alike]
  | .str a => by simp [alike]
  | .arr items => alikeItems_self items
  | .obj fields => alikeFields_self fields

theorem alikeItems_self : (items : List Json) → alikeItems items items = true
  | [] => rfl
  | item :: rest => by simp [alikeItems, alike_self item, alikeItems_self rest]

theorem alikeFields_self : (fields : List (Text × Json)) → alikeFields fields fields = true
  | [] => rfl
  | (key, value) :: rest => by simp [alikeFields, alike_self value, alikeFields_self rest]

end

end Deduction.Json
