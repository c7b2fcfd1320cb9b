import Deduction.Decimal.Shortest
import Deduction.Ordered
import Deduction.Text.Quoted

/-!
Json values.

Integers are of any size and are kept apart from the numbers with a fraction or an exponent, which
are double-precision. An object keeps its keys in the order of their first occurrence.
-/

namespace Deduction

inductive Json where
  | null
  | bool (value : Bool)
  | int (value : Int)
  | real (value : Decimal.Double)
  | str (value : Text)
  | arr (items : List Json)
  | obj (fields : List (Text × Json))
  deriving Inhabited

namespace Json

def typeName : Json → String
  | .null => "NoneType"
  | .bool _ => "bool"
  | .int _ => "int"
  | .real _ => "float"
  | .str _ => "str"
  | .arr _ => "list"
  | .obj _ => "dict"

/-- Numbers are positional while their leading digit stands between `10 ^ -4` and `10 ^ 15`. -/
def realLayout : Decimal.Layout := ⟨-4, 15⟩

def realText : Decimal.Double → String
  | .nan => "nan"
  | .infinite negative => if negative then "-inf" else "inf"
  | .finite negative mantissa exponent =>
      let sign := if negative then "-" else ""
      if mantissa = 0 then sign ++ "0.0"
      else sign ++ String.ofList (realLayout.text (Decimal.shortest mantissa exponent))

mutual

/-- The text of a value in messages: strings quoted, containers with their items in order. -/
def describe : Json → String
  | .null => "None"
  | .bool value => if value then "True" else "False"
  | .int value => toString value
  | .real value => realText value
  | .str value => Text.quoted value
  | .arr items => "[" ++ ", ".intercalate (describeItems items) ++ "]"
  | .obj fields => "\x7b" ++ ", ".intercalate (describeFields fields) ++ "\x7d"

def describeItems : List Json → List String
  | [] => []
  | item :: rest => item.describe :: describeItems rest

def describeFields : List (Text × Json) → List String
  | [] => []
  | (key, value) :: rest => (Text.quoted key ++ ": " ++ value.describe) :: describeFields rest

end

/-- The text of a value in running text: a string stands for itself. -/
def plainText : Json → Text
  | .str value => value
  | value => value.describe

mutual

/-- How many containers stand inside each other. -/
def depth : Json → Nat
  | .arr items => depthOfItems items + 1
  | .obj fields => depthOfFields fields + 1
  | _ => 0

def depthOfItems : List Json → Nat
  | [] => 0
  | item :: rest => max item.depth (depthOfItems rest)

def depthOfFields : List (Text × Json) → Nat
  | [] => 0
  | (_, value) :: rest => max value.depth (depthOfFields rest)

end

end Json

end Deduction
