import Deduction.Log
import Deduction.Proof.Basic

/-!
Scopes: hypotheses with fresh labels that are closed in the reverse order of their opening.

A scope never builds a proof by other means than the rules of inference. A mistake with it can make
an operation fail, but it cannot make a proof wrong.
-/

namespace Deduction

/-- An open hypothesis, with the proof of it from itself. -/
structure Hypothesis (Label Atom : Type) [BEq Label] where
  label : Label
  formula : Formula Atom
  proof : Proof Label Atom

/-- Hypotheses are told apart by their labels and formulas. -/
instance {Label Atom : Type} [BEq Label] [BEq Atom] [ReflBEq Atom] : BEq (Hypothesis Label Atom) :=
  ⟨fun h k => h.label == k.label && h.formula == k.formula⟩

/-- The open hypotheses of one derivation, innermost first. -/
structure Scope (Label Atom : Type) [BEq Label] where
  stack : List (Hypothesis Label Atom)

inductive ScopeError (Label : Type) where
  | nothingOpen
  | dischargeBlocked (label innermost : Label)
  | releaseBlocked (label innermost : Label)
  deriving DecidableEq, Repr

def ScopeError.message {Label : Type} [LabelText Label] : ScopeError Label → Text
  | .nothingOpen => "No open hypothesis to discharge"
  | .dischargeBlocked label innermost => blocked "discharge" label innermost
  | .releaseBlocked label innermost => blocked "release" label innermost
where
  blocked (action : String) (label innermost : Label) : Text :=
    "Cannot " ++ action ++ " " ++ LabelText.plain label ++ ": " ++ LabelText.plain innermost
      ++ " is still open inside it"

inductive DerivationError (Label Atom : Type) where
  | rule (error : RuleError Label Atom)
  | scope (error : ScopeError Label)
  deriving DecidableEq, Repr

namespace DerivationError

variable {Label Atom : Type}

def kind : DerivationError Label Atom → String
  | .rule error => error.kind
  | .scope _ => "ScopeError"

def message [LabelText Label] [AtomText Atom] : DerivationError Label Atom → Text
  | .rule error => error.message
  | .scope error => error.message

end DerivationError

namespace Scope

variable {Label Atom : Type} [BEq Label] [BEq Atom] [ReflBEq Atom]

def empty : Scope Label Atom := ⟨[]⟩

def depth (scope : Scope Label Atom) : Nat := scope.stack.length

def outermostFirst (scope : Scope Label Atom) : List (Hypothesis Label Atom) := scope.stack.reverse

def isOpen (scope : Scope Label Atom) (h : Hypothesis Label Atom) : Bool := scope.stack.contains h

/-- Open a hypothesis under the fresh label with the given number. -/
def push [FreshLabels Label] (scope : Scope Label Atom) (serial : Nat) (f : Formula Atom) :
    Hypothesis Label Atom × Scope Label Atom :=
  let label := FreshLabels.fresh serial
  let h := ⟨label, f, .suppose f label⟩
  (h, ⟨h :: scope.stack⟩)

/-- The innermost hypothesis and the scope around it. If a hypothesis is named, it has to be the
innermost one. -/
def innermost (scope : Scope Label Atom) (named : Option (Hypothesis Label Atom)) :
    Except (ScopeError Label) (Hypothesis Label Atom × Scope Label Atom) :=
  match scope.stack with
  | [] => .error .nothingOpen
  | inner :: outer =>
      match named.filter fun h => !(h.label == inner.label) with
      | some h => .error (.dischargeBlocked h.label inner.label)
      | none => .ok (inner, ⟨outer⟩)

/-- Discharge the innermost hypothesis from a proof. The result holds the hypothesis that was
discharged; a failure leaves the scope as it was. -/
def discharge (scope : Scope Label Atom) (named : Option (Hypothesis Label Atom))
    (p : Proof Label Atom) :
    Except (DerivationError Label Atom)
      (Hypothesis Label Atom × Proof Label Atom × Scope Label Atom) :=
  match scope.innermost named with
  | .error e => .error (.scope e)
  | .ok (inner, outer) =>
      match p.implIntro inner.label with
      | .error e => .error (.rule e)
      | .ok q => .ok (inner, q, outer)

/-- Close a hypothesis without discharging it. Nothing happens if it is not open; the hypotheses
opened inside it have to be closed first. -/
def release (scope : Scope Label Atom) (h : Hypothesis Label Atom) :
    Except (ScopeError Label) (Option (Scope Label Atom)) :=
  match scope.stack with
  | [] => .ok none
  | inner :: outer =>
      if !scope.isOpen h then .ok none
      else if inner == h then .ok (some ⟨outer⟩)
      else .error (.releaseBlocked h.label inner.label)

/-- Abandon a hypothesis and everything that was opened inside it. -/
def unwind (scope : Scope Label Atom) (h : Hypothesis Label Atom) : Scope Label Atom :=
  if scope.isOpen h then ⟨(scope.stack.dropWhile fun k => !(k == h)).drop 1⟩ else scope

/-! ### Log entries -/

variable [LabelText Label] [AtomText Atom]

def debugEntry (message : Text) : LogEntry := ⟨.debug, "natded.scoped", message⟩

/-- The entry for a hypothesis that was opened, with the depth reached. -/
def openedEntry (h : Hypothesis Label Atom) (depth : Nat) : LogEntry :=
  debugEntry <| "Opened hypothesis " ++ LabelText.plain h.label ++ ": " ++ h.formula.describe
    ++ s!" (depth {depth})"

/-- The entry for a hypothesis that was discharged, with the depth left. -/
def dischargedEntry (h : Hypothesis Label Atom) (depth : Nat) : LogEntry :=
  debugEntry <| "Discharged hypothesis " ++ LabelText.plain h.label ++ s!" (depth {depth})"

omit [AtomText Atom] in
def releasedEntry (h : Hypothesis Label Atom) : LogEntry :=
  debugEntry <| "Released undischarged hypothesis " ++ LabelText.plain h.label

end Scope

end Deduction
