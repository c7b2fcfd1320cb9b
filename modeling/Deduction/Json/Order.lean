import Deduction.Json.Same

/-!
The order of Json values by meaning: numbers by value, texts by their code points, and lists by the
first items in which they differ. Other values have no order.
-/

namespace Deduction.Json

inductive Relation where
  | less
  | atMost
  deriving DecidableEq, Repr

def Relation.symbol : Relation → String
  | .less => "<"
  | .atMost => "<="

/-- Two values without an order, by the names of their types. -/
structure NotOrdered where
  relation : Relation
  left : String
  right : String
  deriving DecidableEq, Repr

def NotOrdered.message (e : NotOrdered) : String :=
  s!"'{e.relation.symbol}' not supported between instances of '{e.left}' and '{e.right}'"

def Relation.ofNumerals : Relation → Decimal.Numeral → Decimal.Numeral → Bool
  | .less, x, y => x.lt y
  | .atMost, x, y => x.le y

def Relation.ofTexts : Relation → Text → Text → Bool
  | .less, a, b => decide (a < b)
  | .atMost, a, b => !decide (b < a)

mutual

def related (r : Relation) : Json → Json → Except NotOrdered Bool
  | .str a, .str b => .ok (r.ofTexts a b)
  | .arr as, .arr bs => relatedItems r as bs
  | a, b =>
      match a.numeral?, b.numeral? with
      | some x, some y => .ok (r.ofNumerals x y)
      | _, _ => .error ⟨r, a.typeName, b.typeName⟩

/-- The first items that differ decide, and the lengths if there are none. -/
def relatedItems (r : Relation) : List Json → List Json → Except NotOrdered Bool
  | [], [] => .ok (r = .atMost)
  | [], _ :: _ => .ok true
  | _ :: _, [] => .ok false
  | a :: as, b :: bs => if a.same b then relatedItems r as bs else related r a b

end

/-- Put a value behind those of a sorted list that it is not less than. -/
def insertSorted (value : Json) : List Json → Except NotOrdered (List Json)
  | [] => .ok [value]
  | head :: rest => do
      if ← related .less value head then return value :: head :: rest
      else return head :: (← insertSorted value rest)

/-- The values in increasing order, if all of them can be compared. -/
def sorted (values : List Json) : Except NotOrdered (List Json) :=
  values.foldlM (fun done value => insertSorted value done) []

end Deduction.Json
