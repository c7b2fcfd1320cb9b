import Deduction.Formula.Parser
import Deduction.Json.Basic

/-!
Formulas as Json objects.

Every object has a `type`. A variable has a `name`, and the other formulas have two sides. Keys that
the type does not use are ignored.
-/

namespace Deduction.Formula

def toJson : Formula String → Json
  | .var name => .obj [("type", .str "var"), ("name", .str name)]
  | .conj lhs rhs => .obj [("type", .str "conj"), ("lhs", lhs.toJson), ("rhs", rhs.toJson)]
  | .disj lhs rhs => .obj [("type", .str "disj"), ("lhs", lhs.toJson), ("rhs", rhs.toJson)]
  | .impl lhs rhs => .obj [("type", .str "impl"), ("lhs", lhs.toJson), ("rhs", rhs.toJson)]

inductive DecodeError where
  | notAnObject (value : Json)
  | missingKey (key : String)
  | invalidName (value : Json)
  | unknownType (value : Json)
  | tooDeep

def field (value : Json) (key : String) : Except DecodeError Json :=
  match value with
  | .obj fields =>
      match Ordered.find? (key : Text) fields with
      | some found => .ok found
      | none => .error (.missingKey key)
  | _ => .error (.notAnObject value)

/-- Refuse a value, which is told unless it goes too deep for that. -/
def refuse (room : Nat) (reason : Json → DecodeError) (value : Json) :
    Except DecodeError (Formula String) :=
  .error (if room < value.depth then .tooDeep else reason value)

def ofName (room : Nat) : Json → Except DecodeError (Formula String)
  | .str (.plain name) =>
      if isIdentifier name then .ok (.var name) else .error (.invalidName (.str name))
  | value => refuse room .invalidName value

/-- Decode a formula with fewer than `room` levels. -/
def ofJsonWithin : (room : Nat) → Json → Except DecodeError (Formula String)
  | 0, _ => .error .tooDeep
  | room + 1, value => do
      let binary (connective : Formula String → Formula String → Formula String) := do
        let lhs ← ofJsonWithin room (← field value "lhs")
        let rhs ← ofJsonWithin room (← field value "rhs")
        return connective lhs rhs
      match ← field value "type" with
      | .str (.plain "var") => ofName (room + 1) (← field value "name")
      | .str (.plain "conj") => binary .conj
      | .str (.plain "disj") => binary .disj
      | .str (.plain "impl") => binary .impl
      | other => refuse (room + 1) .unknownType other

def ofJson [Limits] (value : Json) : Except DecodeError (Formula String) :=
  ofJsonWithin (Limits.decoding + 1) value

def DecodeError.message : DecodeError → Text
  | .notAnObject (.str _) => "string indices must be integers, not 'str'"
  | .notAnObject (.arr _) => "list indices must be integers or slices, not str"
  | .notAnObject value => s!"'{value.typeName}' object is not subscriptable"
  | .missingKey key => Text.quoted key
  | .invalidName value => "Invalid variable name: " ++ value.describe
  | .unknownType value => "Unknown formula type: " ++ value.plainText
  | .tooDeep => "formula is nested too deeply"

end Deduction.Formula
