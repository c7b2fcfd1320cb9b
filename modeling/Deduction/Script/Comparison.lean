import Deduction.Formula.Comparison
import Deduction.Script.Replay

/-!
The formulas that are compared when a script is replayed.

A replay that has to compare formulas which are nested too deeply gets stuck: it neither ends in a
proof nor fails.
-/

namespace Deduction

variable {Label Atom : Type} [BEq Label]

/-- The formulas that merging two sets compares: those that one label names in both. -/
def Assumptions.comparisons (a b : Assumptions Label Atom) : List (Formula Atom × Formula Atom) :=
  b.entries.filterMap fun (label, f) => (a.get? label).map fun g => (g, f)

/-- The formulas that the final check of a proof compares. -/
def Proof.comparisons (p : Proof Label Atom) (expected : Formula Atom) :
    List (Formula Atom × Formula Atom) :=
  if p.isClosed then [(p.conclusion, expected)] else []

/-- The formulas that a rule compares, in order. It goes on only as long as they are equal. -/
def Inference.comparisons [BEq Atom] [ReflBEq Atom] :
    Inference (Proof Label Atom) Label Atom → List (Formula Atom × Formula Atom)
  | .conjIntro left right => left.assumptions.comparisons right.assumptions
  | .implElim premise implication =>
      match implication.conclusion with
      | .impl lhs _ =>
          (lhs, premise.conclusion) :: premise.assumptions.comparisons implication.assumptions
      | _ => []
  | .disjElim r s l₁ t l₂ =>
      match r.conclusion, s.assumptions.get? l₁, t.assumptions.get? l₂ with
      | .disj lhs rhs, some left, some right =>
          let ours := s.assumptions.erase l₁
          let theirs := t.assumptions.erase l₂
          let last := match ours.merge theirs with
            | .ok cases => r.assumptions.comparisons cases
            | .error _ => []
          (left, lhs) :: (right, rhs) :: (s.conclusion, t.conclusion)
            :: (ours.comparisons theirs ++ last)
      | _, _, _ => []
  | _ => []

section

variable [BEq Atom] [ReflBEq Atom] [Traced Atom] [Limits]

/-- Whether a step gets stuck, given the proofs of the steps before. -/
def Step.isStuck (s : Step Label Atom) (proofs : Text → Option (Proof Label Atom)) : Bool :=
  let find (ref : Text) : Except Text (Proof Label Atom) :=
    match proofs ref with
    | some p => .ok p
    | none => .error ref
  match s.inference.resolve find with
  | .ok inference => Formula.comparesTooDeep inference.comparisons
  | .error _ => false

/-- The number of steps that are done before a replay gets stuck, given the proofs of the steps
before and the last one of them. -/
def stuckAfter? (goal : Formula Atom) (done : Nat) (proofs : List (Text × Proof Label Atom))
    (last : Option (Proof Label Atom)) : List (Step Label Atom) → Option Nat
  | [] =>
      match last with
      | some p => if Formula.comparesTooDeep (p.comparisons goal) then some done else none
      | none => none
  | step :: rest =>
      let find (ref : Text) := Ordered.find? ref proofs
      if step.isStuck find then some done
      else
        match step.apply find with
        | .ok p => stuckAfter? goal (done + 1) (Ordered.put step.id p proofs) (some p) rest
        | .error _ => none

/-- The number of steps that are done before a replay gets stuck. -/
def Script.stuckAfter? (s : Script Label Atom) : Option Nat :=
  Deduction.stuckAfter? s.goal 0 [] none s.steps

end

/-- A script with every formula written apart from the others. -/
def Script.written (s : Script Label String) : Script Label Written :=
  ⟨s.name, s.goal.written 0,
    s.steps.zipIdx.map fun (step, index) => step.map id id (Formula.written (index + 1))⟩

end Deduction
