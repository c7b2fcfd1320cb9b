import Deduction.Json.Same
import Deduction.Label

/-!
Keys: labels of any kind, compared by meaning. Tuples are compared item by item. A list cannot be a
label, and neither can a tuple that holds one. A label that is no number equals itself only, so
every one that is made has a number of its own.
-/

namespace Deduction

inductive Key where
  | scalar (value : Json)
  | tuple (items : List Key)
  /-- A fresh label. Its number may have been replaced by another value. -/
  | fresh (serial : Json)
  | nan (id : Nat)

namespace Key

mutual

def same : Key → Key → Bool
  | .scalar a, .scalar b => a.same b
  | .tuple as, .tuple bs => sameItems as bs
  | .fresh a, .fresh b => a.same b
  | .nan m, .nan n => m == n
  | _, _ => false

def sameItems : List Key → List Key → Bool
  | [], [] => true
  | a :: as, b :: bs => same a b && sameItems as bs
  | _, _ => false

end

instance : BEq Key := ⟨same⟩

mutual

def describe : Key → String
  | .scalar value => value.describe
  | .tuple [] => "()"
  | .tuple [item] => "(" ++ item.describe ++ ",)"
  | .tuple items => "(" ++ ", ".intercalate (describeItems items) ++ ")"
  | .fresh serial => ScopedLabel.freshDescribe serial.describe
  | .nan _ => Json.realText .nan

def describeItems : List Key → List String
  | [] => []
  | item :: rest => item.describe :: describeItems rest

end

def plain : Key → Text
  | .scalar value => value.plainText
  | .fresh serial => ScopedLabel.freshPlain serial.plainText
  | key => key.describe

instance : LabelText Key := ⟨plain, describe⟩

instance : FreshLabels Key := ⟨fun serial => .fresh (.int serial)⟩

def ofLabel : Label → Key
  | .number value => .scalar (.int value)
  | .name text => .scalar (.str text)

mutual

/-- The type of the first part that keeps a key from labelling a hypothesis. -/
def unhashable? : Key → Option String
  | .scalar (.arr items) => some (Json.arr items).typeName
  | .scalar (.obj fields) => some (Json.obj fields).typeName
  | .fresh (.obj fields) => some (Json.obj fields).typeName
  | .tuple items => firstUnhashable? items
  | _ => none

def firstUnhashable? : List Key → Option String
  | [] => none
  | item :: rest => item.unhashable? <|> firstUnhashable? rest

end

mutual

/-- Whether a key keeps its equality when it is written out and read back. -/
def isLasting : Key → Bool
  | .scalar value => value.same value
  | .tuple items => allLasting items
  | .fresh _ => true
  | .nan _ => false

def allLasting : List Key → Bool
  | [] => true
  | item :: rest => item.isLasting && allLasting rest

end

/-- Whether a key equals a plain value. A tuple never does. -/
def sameAsJson : Key → Json → Bool
  | .scalar a, b => a.same b
  | _, _ => false

def typeName : Key → String
  | .scalar value => value.typeName
  | .tuple _ => "tuple"
  | .fresh _ => "FreshLabel"
  | .nan _ => "float"

end Key

end Deduction
