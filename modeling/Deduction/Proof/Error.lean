import Deduction.Formula.Basic
import Deduction.Label
import Deduction.Nesting

/-!
Why a rule of inference does not apply.
-/

namespace Deduction

inductive RuleError (Label Atom : Type) where
  | inconsistentLabel (label : Label) (left right : Formula Atom)
  | notAConjunction (found : Formula Atom)
  | notAnImplication (found : Formula Atom)
  | notADisjunction (found : Formula Atom)
  | premiseMismatch (expected actual : Formula Atom)
  | caseMismatch (expected actual : Formula Atom)
  | conclusionMismatch (expected actual : Formula Atom)
  | labelNotFound (label : Label)
  /-- A proof that should be closed depends on assumptions with these labels. -/
  | openAssumptions (labels : List Label)
  deriving DecidableEq, Repr

namespace RuleError

variable {Label Atom : Type}

def kind : RuleError Label Atom → String
  | .inconsistentLabel _ _ _ => "InconsistentLabel"
  | .notAConjunction _ => "NotAConjunction"
  | .notAnImplication _ => "NotAnImplication"
  | .notADisjunction _ => "NotADisjunction"
  | .premiseMismatch _ _ => "PremiseMismatch"
  | .caseMismatch _ _ => "CaseMismatch"
  | .conclusionMismatch _ _ => "ConclusionMismatch"
  | .labelNotFound _ => "LabelNotFound"
  | .openAssumptions _ => "OpenAssumptions"

def formulas : RuleError Label Atom → List (Formula Atom)
  | .inconsistentLabel _ left right => [left, right]
  | .notAConjunction found => [found]
  | .notAnImplication found => [found]
  | .notADisjunction found => [found]
  | .premiseMismatch expected actual => [expected, actual]
  | .caseMismatch expected actual => [expected, actual]
  | .conclusionMismatch expected actual => [expected, actual]
  | .labelNotFound _ => []
  | .openAssumptions _ => []

/-- Whether the message would hold a formula that is nested too deeply. -/
def tooDeep [Limits] (e : RuleError Label Atom) : Bool :=
  e.formulas.any fun f => f.exceeds Limits.describing

def sortTexts (texts : List String) : List String := texts.mergeSort fun a b => !decide (b < a)

def message [LabelText Label] [AtomText Atom] : RuleError Label Atom → String
  | .inconsistentLabel label left right =>
      "Label " ++ LabelText.describe label ++ " is bound to both " ++ left.describe ++ " and "
        ++ right.describe
  | .notAConjunction found => "Expected a conjunction, got " ++ found.describe
  | .notAnImplication found => "Expected an implication, got " ++ found.describe
  | .notADisjunction found => "Expected a disjunction, got " ++ found.describe
  | .premiseMismatch expected actual => mismatch "premise" expected actual
  | .caseMismatch expected actual => mismatch "case hypothesis" expected actual
  | .conclusionMismatch expected actual => mismatch "conclusion" expected actual
  | .labelNotFound label => "No open assumption is labelled " ++ LabelText.describe label
  | .openAssumptions labels =>
      "Proof still depends on open assumptions: "
        ++ ", ".intercalate (sortTexts (labels.map LabelText.describe))
where
  mismatch (what : String) (expected actual : Formula Atom) : String :=
    "Mismatched " ++ what ++ ": expected " ++ expected.describe ++ ", got " ++ actual.describe

end RuleError

end Deduction
