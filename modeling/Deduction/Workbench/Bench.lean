import Deduction.Decimal.Reading
import Deduction.Script.Comparison
import Deduction.Workbench.Instruction
import Deduction.Workbench.Value

/-!
The workbench: named registers, scopes and a log, and work on them that may end in a fault.
-/

namespace Deduction.Workbench

structure State where
  registers : List (String × Value)
  scopes : List (Scope Key Leaf)
  /-- The fields that were put on scopes, by the indices of the scopes. -/
  fields : List (Nat × String)
  serial : Nat
  nextId : Nat
  log : List LogEntry

def emptyId : Nat := 0

def State.initial : State := ⟨[], [], [], 1, emptyId + 1, []⟩

def State.premise? (s : State) (name : String) : Option Premise :=
  match Ordered.find? name s.registers with
  | some (.proof marks p) => some ⟨marks, p⟩
  | _ => none

def State.premiseAt? (s : State) : Text → Option Premise
  | .plain name => s.premise? name
  | .broken _ _ _ => none

def State.scopeOf? (s : State) : Value → Option (Scope Key Leaf)
  | .scope index => s.scopes[index]?
  | _ => none

def State.scopeIn? (s : State) (name : String) : Option (Scope Key Leaf) :=
  (Ordered.find? name s.registers).bind s.scopeOf?

def State.tooDeep [Limits] (s : State) (value : Value) : Bool :=
  value.tooDeep || (s.scopeOf? value).any fun scope =>
    scope.stack.any fun h => h.formula.exceeds Limits.describing

/-- Work on the state that may end in a fault. The state outlives the fault. -/
abbrev Bench := ExceptT Fault (StateM State)

namespace Bench

def ofExcept {α : Type} : Except Fault α → Bench α
  | .ok a => return a
  | .error e => throw e

def newId : Bench Nat := do
  let s ← get
  set { s with nextId := s.nextId + 1 }
  return s.nextId

def newSet (set : Assumptions Key Leaf) : Bench Value := do
  return .assumptions (← newId) set

def newJson (value : Json) : Bench Value := do return .made (← newId) value

def newText (text : Text) : Bench Value := newJson (.str text)

def newScope : Bench Value := do
  let s ← get
  set { s with scopes := s.scopes ++ [Scope.empty] }
  return .scope s.scopes.length

def ofTermError {α : Type} : Except TermError α → Bench α
  | .ok a => return a
  | .error e => throw (.term e)

def record (entry : LogEntry) : Bench Unit := modify fun s => { s with log := s.log ++ [entry] }

def register (name : String) : Bench Value := do
  match Ordered.find? name (← get).registers with
  | some value => return value
  | none => throw (.noRegister name)

def store (name : String) (value : Value) : Bench Unit :=
  modify fun s => { s with registers := Ordered.put name value s.registers }

/-! ### Arguments -/

/-- A field of a scope: its depth, or one that was put on it. -/
def scopeMember (index : Nat) (name : String) : Bench Value := do
  let s ← get
  if name = "depth" then
    let depth := (s.scopes.getD index .empty).depth
    return .ofTerm .written (Term.foreign ⟨← newId, 0⟩ (.int depth))
  else if s.fields.contains (index, name) then return .null
  else throw (.noAttribute (Value.scope index).typeName name)

def member (value : Value) (name : String) : Bench Value :=
  match value, name with
  | .proof marks p, "assumptions" => return .assumptions marks.setId p.assumptions
  | .proof marks p, "conclusion" => return .ofTerm marks.conclusion p.conclusion
  | .proof _ p, "is_closed" => return .bool p.isClosed
  | .hypothesis id setId h, "proof" => return .proof ⟨id, setId, .written⟩ h.proof
  | .hypothesis _ _ h, "label" => return .label h.label
  | .hypothesis _ _ h, "formula" => return .ofTerm .written h.formula
  | .label (.fresh serial), "serial" => return .fixed serial
  | .scope index, name => scopeMember index name
  | value, name => throw (.noAttribute value.typeName name)

mutual

def label : LabelArg → Bench Key
  | .scalar value => return .scalar value
  | .real text => do
      match Decimal.Double.ofText? text with
      | some .nan => return .nan (← newId)
      | some value => return .scalar (.real value)
      | none => throw (.notANumber text)
  | .tuple items => return .tuple (← labels items)
  | .list items => return .scalar (.arr items)
  | .labelOf name => do
      match ← member (← register name) "label" with
      | .label key => return key
      | value => throw (.noAttribute value.typeName "label")

def labels : List LabelArg → Bench (List Key)
  | [] => return []
  | item :: rest => do
      let key ← label item
      let keys ← labels rest
      return key :: keys

end

def formula [Limits] (f : FormulaArg) : Bench Term := do
  let number ← newId
  return Term.written number (← ofExcept f.eval)

def ref [Limits] : RefArg → Bench Value
  | .register name => register name
  | .member name part => do member (← register name) part
  | .value value => do return .ofTerm .written (Term.foreign ⟨← newId, 0⟩ value)
  | .formula f => do return .ofTerm .written (← formula f)

/-! ### Texts -/

/-- The text of a plain value. That of a truth value is always the same object. -/
def textOf : Json → Bench Value
  | .bool value => return .fixed (.str (Json.bool value).describe)
  | value => newText value.describe

def describe [Limits] : Value → Bench Value
  | .term _ (.var ⟨.foreign value, _⟩) => textOf value
  | x => do newText (← ofTermError x.tryDescribe)

/-- The text of a value in running text. A text is its own. -/
def plain [Limits] : Value → Bench Value
  | .label key => newText key.plain
  | .term assembly (.var ⟨.foreign (.str text), origin⟩) =>
      return .term assembly (.var ⟨.foreign (.str text), origin⟩)
  | x => describe x

/-! ### Checks of types -/

def requireProof : Value → Bench Premise
  | .proof marks p => return ⟨marks, p⟩
  | value => throw (.expected "Proof" value.typeName)

def requireFormula (t : Term) : Bench Term :=
  if Term.isFormula t then return t else throw (.expected "Formula" (Term.typeName t))

def requireSide : SideArg → Bench Side
  | .side side => return side
  | .value value => throw (.expected "Side" value.typeName)

def requireHashable (key : Key) : Bench Key :=
  match key.unhashable? with
  | none => return key
  | some typeName => throw (.term (.unhashable typeName))

def compareAll [Limits] (pairs : List (Term × Term)) : Bench Unit :=
  if Formula.comparesTooDeep pairs then throw (.term .tooDeep) else return ()

/-! ### Rules -/

def newProof (inference : Inference Premise Key Leaf) (p : Proof Key Leaf) : Bench Value := do
  let id ← newId
  let setId ← match passedSet? inference with
    | some setId => pure setId
    | none => newId
  let conclusion := .ofInference id (inference.map (·.marks.conclusion) (·) (·))
  return .proof ⟨id, setId, conclusion⟩ p

/-- Apply a rule. A label that cannot be a key is never open. -/
def infer [Limits] (inference : Inference Premise Key Leaf) : Bench Value := do
  let proofs := inference.map Premise.proof (·) (·)
  compareAll proofs.comparisons
  match proofs.apply with
  | .ok p => newProof inference p
  | .error (.labelNotFound key) =>
      let key ← requireHashable key
      throw (.rule (.labelNotFound key))
  | .error e => throw (.rule e)

end Bench

end Deduction.Workbench
