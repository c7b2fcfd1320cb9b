import Deduction.Workbench.Bench

/-!
Assumption sets on a workbench, and plain values in their place.
-/

namespace Deduction.Workbench.Bench

/-- A key with what it stands for, from an item that has to be a pair: a list, a text with two
code points, or an object by its keys. -/
def pairOf (index : Nat) : Json → Bench (Json × Json)
  | .arr [key, value] => return (key, value)
  | .arr items => throw (.notAPair index items.length)
  | .str text =>
      match text.points with
      | [key, value] => return (.str (.ofPoints [key]), .str (.ofPoints [value]))
      | ps => throw (.notAPair index ps.length)
  | .obj [(key, _), (value, _)] => return (.str key, .str value)
  | .obj fields => throw (.notAPair index fields.length)
  | _ => throw (.notASequence index)

def entriesOfItems (origin : Origin) (index : Nat) : List Json → Bench (List (Key × Term))
  | [] => return []
  | item :: rest => do
      let (key, value) ← pairOf index item
      let key ← requireHashable (.scalar key)
      let entries ← entriesOfItems origin (index + 1) rest
      return (key, Term.foreign origin value) :: entries

/-- The set that is merged into: a list or a text is read as pairs. -/
def asMapping : Value → Bench (Assumptions Key Leaf)
  | .assumptions _ set => return set
  | .term _ (.var ⟨.foreign (.obj fields), origin⟩) => return Value.setOfFields origin fields
  | .term _ (.var ⟨.foreign (.arr items), origin⟩) => do
      return .ofList (← entriesOfItems origin 0 items)
  | .term _ (.var ⟨.foreign (.str text), _⟩) =>
      if text.isEmpty then return .empty else throw (.notAPair 0 1)
  | value => throw (.notIterable value.typeName)

def asItems : Value → Bench (Assumptions Key Leaf)
  | .assumptions _ set => return set
  | .term _ (.var ⟨.foreign (.obj fields), origin⟩) => return Value.setOfFields origin fields
  | value => throw (.noAttribute value.typeName "items")

def merge [Limits] (a b : Value) : Bench Value := do
  let a ← asMapping a
  let b ← asItems b
  compareAll (a.comparisons b)
  match Proof.mergeAssumptions a b with
  | .ok set => newSet set
  | .error e => throw (.rule e)

def setOf [Limits] :
    List (LabelArg × FormulaArg) → Assumptions Key Leaf → Bench (Assumptions Key Leaf)
  | [], set => return set
  | (l, f) :: rest, set => do
      let key ← label l
      let t ← formula f
      let key ← requireHashable key
      setOf rest (set.insert key t)

def lookUp (set : Assumptions Key Leaf) (key : Key) : Bench Term := do
  let key ← requireHashable key
  match set.get? key with
  | some t => return t
  | none => throw (.missingKey key.describe)

/-- Positions are signed words of 64 bits. -/
def isPosition (index : Int) : Bool := -Int.pow 2 63 ≤ index && index < Int.pow 2 63

/-- The item of a list or a text at a position, which counts from the end if it is negative. -/
def itemAt (container : Json) (items : List Json) (key : Key) : Bench Json := do
  let index ← match key with
    | .scalar (.int index) => pure index
    | .scalar (.bool value) => pure (if value then 1 else 0)
    | key => throw (.notAnIndex container key.typeName)
  if !isPosition index then throw .indexTooLarge
  let position := if index < 0 then index + items.length else index
  match if position < 0 then none else items[position.toNat]? with
  | some item => return item
  | none => throw (.outOfRange container)

def lettersOf (text : Text) : List Json := text.points.map fun p => .str (.ofPoints [p])

def pick [Limits] (x : Value) (key : Key) : Bench Value := do
  match x with
  | .assumptions _ set => describe (.term .written (← lookUp set key))
  | .term _ (.var ⟨.foreign (.obj fields), _⟩) =>
      let key ← requireHashable key
      match fields.find? fun field => key.sameAsJson (.str field.1) with
      | some (_, value) => textOf value
      | none => throw (.missingKey key.describe)
  | .term _ (.var ⟨.foreign (.arr items), _⟩) => textOf (← itemAt (.arr items) items key)
  | .term _ (.var ⟨.foreign (.str text), _⟩) =>
      textOf (← itemAt (.str text) (lettersOf text) key)
  | value => throw (.notSubscriptable value.typeName)

def isPart (part : List Point) : List Point → Bool
  | [] => part.isEmpty
  | c :: rest => part.isPrefixOf (c :: rest) || isPart part rest

def holds (x : Value) (key : Key) : Bench Bool := do
  match x with
  | .assumptions _ set => return set.contains (← requireHashable key)
  | .term _ (.var ⟨.foreign (.obj fields), _⟩) =>
      let key ← requireHashable key
      return fields.any fun field => key.sameAsJson (.str field.1)
  | .term _ (.var ⟨.foreign (.arr items), _⟩) => return items.any key.sameAsJson
  | .term _ (.var ⟨.foreign (.str text), _⟩) =>
      match key with
      | .scalar (.str part) => return isPart part.points text.points
      | key => throw (.notAPart key.typeName)
  | value => throw (.notAContainer value.typeName)

end Deduction.Workbench.Bench
