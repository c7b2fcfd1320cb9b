import Deduction.Proof.Sequent
import Deduction.Workbench.Mapping
import Deduction.Workbench.Tamper

/-!
Running instructions on a workbench.
-/

namespace Deduction.Workbench

namespace Bench

def compare [Limits] (a b : Value) : Comparison → Bench Bool
  | .eq => ofTermError (a.equal b)
  | .ne => return !(← ofTermError (a.equal b))
  | .is => return a.identical b
  | .sameHash => do
      let a ← ofTermError a.fingerprint
      let b ← ofTermError b.fingerprint
      return a == b
  | .lt => order .less
  | .le => order .atMost
where
  order (r : Json.Relation) : Bench Bool :=
    match Value.related r a b with
    | .ok holds => return holds
    | .error e => throw (.term (.notOrdered e))

/-! ### Scopes -/

/-- The index of the scope in a register, on which a method is called. -/
def scopeIndex (name method : String) : Bench Nat := do
  match ← register name with
  | .scope index => return index
  | value => throw (.noAttribute value.typeName method)

def scopeAt (index : Nat) : Bench (Scope Key Leaf) := do
  return (← get).scopes.getD index .empty

def setScope (index : Nat) (scope : Scope Key Leaf) : Bench Unit :=
  modify fun s => { s with scopes := s.scopes.set index scope }

/-- Take the next fresh label, and open a hypothesis under it if there is a formula to assume. -/
def push (index : Nat) (t : Term) : Bench (Value × Hypothesis Key Leaf) := do
  let serial := (← get).serial
  modify fun s => { s with serial := serial + 1 }
  let t ← requireFormula t
  let (h, scope) := (← scopeAt index).push serial t
  setScope index scope
  record (Scope.openedEntry h scope.depth)
  let id ← newId
  let setId ← newId
  return (.hypothesis id setId h, h)

/-- The hypothesis that a discharge names; `null` names none. -/
def namedHypothesis : Option Value → Bench (Option (Hypothesis Key Leaf))
  | none => return none
  | some (.term _ (.var ⟨.foreign .null, _⟩)) => return none
  | some (.hypothesis _ _ h) => return some h
  | some value => throw (.noAttribute value.typeName "label")

/-- Discharge the innermost hypothesis. What is not a proof is noticed only when the scope agrees.
-/
def discharge [Limits] (index : Nat) (named : Option Value) (p : Value) : Bench Value := do
  let scope ← scopeAt index
  if scope.stack.isEmpty then throw (.scope .nothingOpen)
  let named ← namedHypothesis named
  match scope.innermost named with
  | .error e => throw (.scope e)
  | .ok (h, outer) =>
      let p ← requireProof p
      let q ← infer (.implIntro h.label p)
      setScope index outer
      record (Scope.dischargedEntry h outer.depth)
      return q

def release (index : Nat) (h : Value) : Bench Unit := do
  match h with
  | .hypothesis _ _ h =>
      match (← scopeAt index).release h with
      | .error e => throw (.scope e)
      | .ok none => return ()
      | .ok (some scope) =>
          setScope index scope
          record (Scope.releasedEntry h)
  | _ => return ()

def unwind (index : Nat) (h : Hypothesis Key Leaf) : Bench Unit := do
  setScope index ((← scopeAt index).unwind h)

/-! ### Actions -/

def sequent [Limits] (symbols : Symbols) (p : Proof Key Leaf) : Except TermError Text := do
  return (← p.sequent.traverse Term.printable).render symbols

def readJson [Limits] (text : Text) : Bench Json := do
  match Json.read Limits.reading text.points with
  | .ok value => return value
  | .error e => throw (.unreadable e)

def applyStep [Limits] (text : Text) : Bench Value := do
  match Step.ofJson "step" (← readJson text) with
  | .error e => throw (if e.tooDeep then .term .tooDeep else .format e)
  | .ok step =>
      let step := step.map id Key.ofLabel (Term.ofFormula (← newId))
      let s ← get
      let found := step.inference.resolve fun name =>
        match s.premiseAt? name with
        | some premise => .ok premise
        | none => .error (Fault.missingKey (Text.quoted name))
      infer (← ofExcept found)

def act [Limits] : Action → Bench Value
  | .suppose f l => do
      let t ← formula f
      let key ← label l
      let t ← requireFormula t
      let key ← requireHashable key
      infer (.suppose t key)
  | .conjIntro p q => do
      let p ← ref p
      let q ← ref q
      let p ← requireProof p
      let q ← requireProof q
      infer (.conjIntro p q)
  | .conjElim p side => do
      let p ← requireProof (← ref p)
      let side ← requireSide side
      infer (.conjElim p side)
  | .disjIntro p other side => do
      let p ← ref p
      let other ← formula other
      let p ← requireProof p
      let other ← requireFormula other
      let side ← requireSide side
      infer (.disjIntro p other side)
  | .implElim p q => do
      let p ← ref p
      let q ← ref q
      let p ← requireProof p
      let q ← requireProof q
      infer (.implElim p q)
  | .implIntro l q => do
      let key ← label l
      let q ← requireProof (← ref q)
      infer (.implIntro key q)
  | .disjElim r s l₁ t l₂ => do
      let r ← ref r
      let s ← ref s
      let k₁ ← label l₁
      let t ← ref t
      let k₂ ← label l₂
      let r ← requireProof r
      let s ← requireProof s
      let t ← requireProof t
      infer (.disjElim r s k₁ t k₂)
  | .shows p expected => do
      let value ← ref p
      let expected ← formula expected
      let p ← requireProof value
      let expected ← requireFormula expected
      compareAll (p.proof.comparisons expected)
      match p.proof.shows expected with
      | .ok _ => return value
      | .error e => throw (.rule e)
  | .render p ascii => do
      match ← ref p with
      | .proof _ p => newText (← ofTermError (sequent (.select ascii) p))
      | value => throw (.noAttribute value.typeName "assumptions")
  | .describe x => do describe (← ref x)
  | .plain x => do plain (← ref x)
  | .compare a b comparison => do
      let a ← ref a
      let b ← ref b
      return .bool (← compare a b comparison)
  | .set items => do newSet (← setOf items .empty)
  | .empty => return .assumptions emptyId .empty
  | .single l f => do newSet (← setOf [(l, f)] .empty)
  | .merge a b => do
      let a ← ref a
      let b ← ref b
      merge a b
  | .without x l => do
      let x ← ref x
      let key ← label l
      match x with
      | .assumptions _ set =>
          let _ ← lookUp set key
          newSet (set.erase key)
      | value => throw (.noAttribute value.typeName "without")
  | .get x l => do
      let x ← ref x
      let key ← label l
      pick x key
  | .contains x l => do
      let x ← ref x
      let key ← label l
      return .bool (← holds x key)
  | .tamper x how => do
      let result ← tamper (← ref x) how
      if let (.register name, .refill) := (x, how) then store name result
      return result
  | .fresh => do
      let serial := (← get).serial
      modify fun s => { s with serial := serial + 1 }
      return .label (FreshLabels.fresh serial)
  | .applyStep step => applyStep step
  | .newScope => newScope
  | .push scope f => do
      let index ← scopeIndex scope "push"
      let t ← formula f
      return (← push index t).1
  | .discharge scope named p => do
      let index ← scopeIndex scope "discharge"
      let named ← match named with
        | some h => pure (some (← ref h))
        | none => pure none
      let p ← ref p
      discharge index named p
  | .release scope h => do
      let index ← scopeIndex scope "release"
      release index (← ref h)
      return .null
  | .raise message => throw (.raised message)

end Bench

/-! ### Programs -/

/-- What became of an instruction, with the scope that it worked on as it left it. -/
inductive Entry where
  | ok (value : Value) (contents scope : Option (Scope Key Leaf))
  | failed (fault : Fault) (scope : Option (Scope Key Leaf))
  /-- A block that was entered, with the fault that left it. -/
  | block (entered : Value) (body : List Entry) (fault : Option Fault)
      (scope : Option (Scope Key Leaf))

def attempt {α : Type} (work : Bench α) : StateM State (Except Fault α) := ExceptT.run work

/-- Enter a block: find the scope, take the formula and open the hypothesis. -/
def enter [Limits] (scope : String) (f : FormulaArg) (register : String) :
    Bench (Nat × Value × Hypothesis Key Leaf) := do
  let index ← Bench.scopeIndex scope "assume"
  let t ← Bench.formula f
  let (value, h) ← Bench.push index t
  Bench.store register value
  return (index, value, h)

/-- Leave a block, whose fault abandons everything opened inside it. -/
def leave (index : Nat) (h : Hypothesis Key Leaf) : Option Fault → StateM State (Option Fault)
  | some fault => do
      let _ ← attempt (Bench.unwind index h)
      return some fault
  | none => do
      match ← attempt (Bench.release index (.hypothesis 0 0 h)) with
      | .ok () => return none
      | .error fault => return some fault

mutual

/-- Run one instruction. The second part is the fault that ends the list around it. A result that is
nested too deeply to be shown is kept, but counts as a fault. -/
def runOne [Limits] : Instruction → StateM State (Entry × Option Fault)
  | .act action register watched propagate => do
      let work := do
        let value ← Bench.act action
        if let some name := register then Bench.store name value
        if (← get).tooDeep value then throw (.term .tooDeep)
        return value
      let result ← attempt work
      let s ← get
      let scope := watched.bind s.scopeIn?
      match result with
      | .ok value => return (.ok value (s.scopeOf? value) scope, none)
      | .error fault =>
          let leaving := propagate || action.alwaysLeaves
          return (.failed fault scope, if leaving then some fault else none)
  | .assume scope f register propagate body => do
      match ← attempt (enter scope f register) with
      | .error fault =>
          let scope := (← get).scopeIn? scope
          return (.failed fault scope, if propagate then some fault else none)
      | .ok (index, entered, h) =>
          if entered.tooDeep then
            let fault := Fault.term .tooDeep
            let _ ← leave index h (some fault)
            let scope := (← get).scopeIn? scope
            return (.failed fault scope, if propagate then some fault else none)
          let (entries, leaving) ← runList body
          let fault ← leave index h leaving
          let scope := (← get).scopeIn? scope
          return (.block entered entries fault scope, if propagate then fault else none)

def runList [Limits] : List Instruction → StateM State (List Entry × Option Fault)
  | [] => return ([], none)
  | instruction :: rest => do
      match ← runOne instruction with
      | (entry, some fault) => return ([entry], some fault)
      | (entry, none) =>
          let (entries, fault) ← runList rest
          return (entry :: entries, fault)

end

structure Outcome where
  entries : List Entry
  escaped : Option Fault
  log : List LogEntry

/-- Replay a script whose goal may be a foreign value, which is noticed when every step has its
proof. -/
def replay [Limits] (script : Script Key Leaf) : Except Fault (Verdict Key Leaf) :=
  match script.replay with
  | .error (.invalid reason) => .error (.format (.invalid reason))
  | .error (.unknownRef ref) => .error (.missingKey (Text.quoted ref))
  | .ok verdict =>
      if script.stuckAfter?.isSome then .error (.term .tooDeep)
      else
        match verdict with
        | .error (.goal e) =>
            if Term.isFormula script.goal then settle (.goal e)
            else .error (.expected "Formula" (Term.typeName script.goal))
        | .error failure => settle failure
        | .ok p => if Value.proofTooDeep p then .error (.term .tooDeep) else .ok (.ok p)
where
  settle (failure : Failure Key Leaf) : Except Fault (Verdict Key Leaf) :=
    if failure.error.tooDeep then .error (.term .tooDeep) else .ok (.error failure)

def run [Limits] (program : List Instruction) : Outcome :=
  let ((entries, escaped), s) := Id.run (StateT.run (runList program) .initial)
  ⟨entries, escaped, s.log⟩

end Deduction.Workbench
