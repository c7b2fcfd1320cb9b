import Deduction.Workbench.Bench

/-!
Getting around the rules, or changing what they gave.
-/

namespace Deduction.Workbench.Bench

/-- Whether a term keeps its equality when it is written out and read back. -/
def isLasting (t : Term) : Bool :=
  t.occurrences.all fun leaf => leaf.content.same leaf.content

/-- Write a value out and read it back, and compare the two. Proofs are never written out. -/
def transfer [Limits] (x : Value) : Bench Bool := do
  match x with
  | .proof _ _ => throw (.tampered .transferred)
  | .assumptions _ set =>
      notTooDeep
      return set.entries.all fun e => e.1.isLasting && isLasting e.2
  | .hypothesis _ _ _ =>
      notTooDeep
      throw (.tampered .transferred)
  | .scope _ => throw (.tampered .locked)
  | .label key => return key.isLasting
  | .term _ t =>
      notTooDeep
      return isLasting t
where
  notTooDeep : Bench Unit := if x.tooDeep then throw (.term .tooDeep) else return ()

/-- Whether a value equals its copy, and whether it is its copy. A copy of a proof is the proof
itself, and so it is with plain values that cannot be changed. -/
def copied [Limits] (deep : Bool) (x : Value) : Bench (Bool × Bool) := do
  match x with
  | .proof _ _ => return (true, true)
  | .scope _ => if deep then throw (.tampered .locked) else return (false, false)
  | .term _ (.var ⟨.foreign value, _⟩) =>
      match value with
      | .arr _ => return (true, false)
      | .obj _ => return (true, false)
      | value => return (value.same value, true)
  | x => if deep && x.tooDeep then throw (.term .tooDeep) else return (true, false)

/-- Why a field of a value cannot be changed. Hypotheses, labels and formulas are records, and plain
values do not have the field. -/
def unchangeable (x : Value) (verb field : String) : Fault :=
  match x with
  | .hypothesis _ _ _ => .tampered (.frozen verb field)
  | .label _ => .tampered (.frozen verb field)
  | .term _ t =>
      if Term.isFormula t then .tampered (.frozen verb field) else .noAttribute x.typeName field
  | x => .tampered (.immutable x.typeName)

/-- The fields of a scope that are computed from its stack. -/
def scopeProperties : List String := ["depth", "open_hypotheses"]

/-- Set a field. Only scopes take new ones. -/
def assign (x : Value) (field : String) : Bench Value := do
  match x with
  | .scope index =>
      if scopeProperties.contains field then
        throw (.tampered (.computed x.typeName field "setter"))
      modify fun s => { s with fields := (index, field) :: s.fields.erase (index, field) }
      return x
  | x => throw (unchangeable x "assign to" field)

/-- Take a field away, which has to have been put on a scope. -/
def erase (x : Value) (field : String) : Bench Value := do
  match x with
  | .scope index =>
      if scopeProperties.contains field then
        throw (.tampered (.computed x.typeName field "deleter"))
      if !(← get).fields.contains (index, field) then throw (.noAttribute x.typeName field)
      modify fun s => { s with fields := s.fields.erase (index, field) }
      return x
  | x => throw (unchangeable x "delete" field)

def blank : Json → Json
  | .null => .null
  | .bool _ => .bool false
  | .int _ => .int 0
  | .real _ => .real (.finite false 0 Decimal.Double.minExponent)
  | .str _ => .str ""
  | .arr _ => .arr []
  | .obj _ => .obj []

/-- The parameters that a value of a record type is filled with, after the value itself. -/
def params? : Value → Option (List String)
  | .hypothesis _ _ _ => some ["label", "formula", "proof"]
  | .scope _ => some []
  | .label _ => some ["serial"]
  | .term _ (.var ⟨.name _, _⟩) => some ["name"]
  | .term _ (.var ⟨.foreign _, _⟩) => none
  | .term _ _ => some ["lhs", "rhs"]
  | _ => none

/-- Check that a value is filled with as many arguments as it has parameters. The value itself
counts as an argument. -/
def checkCount (x : Value) (given : Nat) : Bench Unit :=
  match params? x with
  | none => return ()
  | some params =>
      if params.length = given then return ()
      else throw (.wrongCount ⟨x.typeName ++ ".__init__", "value" :: params, given + 1⟩)

def construct [Limits] (x : Value) : Bench Value := do
  checkCount x 0
  match x with
  | .proof _ _ => throw (.tampered .forged)
  | .assumptions _ _ => newSet .empty
  | .scope _ => newScope
  | .term _ (.var ⟨.foreign value, _⟩) => ref (.value (blank value))
  | x => return x

/-- Fill a value with an empty object as its only argument. Of the plain values a list is emptied.
-/
def refill (x : Value) : Bench Value := do
  checkCount x 1
  match x with
  | .proof _ _ => throw (.tampered .forged)
  | .label (.fresh _) => return .label (.fresh (.obj []))
  | .term assembly (.var ⟨.name _, origin⟩) =>
      return .term assembly (.var ⟨.name (.obj []), origin⟩)
  | .term assembly (.var ⟨.foreign (.arr _), origin⟩) =>
      return .term assembly (.var ⟨.foreign (.arr []), origin⟩)
  | x => return x

def extensionName : String := "Forged"

/-- Make a type from that of a value. None is made from the types of proofs, of truth values and of
nothing. -/
def extend (x : Value) : Bench Value :=
  match x with
  | .proof _ _ => throw (.tampered .extended)
  | .term _ (.var ⟨.foreign .null, _⟩) => throw (.tampered (.final x.typeName))
  | .term _ (.var ⟨.foreign (.bool _), _⟩) => throw (.tampered (.final x.typeName))
  | _ => return .fixed (.str extensionName)

/-- Proofs are sealed: they come from rules only, and they are never changed or written out. Sets
are plain values that cannot be changed. -/
def tamper [Limits] (x : Value) (how : Tampering) : Bench Value := do
  match how with
  | .construct => construct x
  | .extend => extend x
  | .assign field => assign x field
  | .erase field => erase x field
  | .refill => refill x
  | .transfer => return .bool (← transfer x)
  | .copy => report (← copied false x)
  | .deepCopy => report (← copied true x)
where
  report (outcome : Bool × Bool) : Bench Value :=
    newJson (.arr [.bool outcome.1, .bool outcome.2])

end Deduction.Workbench.Bench
