import Deduction.Proof.Basic

/-!
Derivation scripts: a goal and a sequence of named steps.

Every step applies one rule of inference to formulas, labels and the results of earlier steps. The
last step is the candidate proof of the goal.
-/

namespace Deduction

/-- An application of a rule of inference to premises that are given by references. -/
inductive Inference (Ref Label Atom : Type) where
  | suppose (formula : Formula Atom) (label : Label)
  | conjIntro (left right : Ref)
  | conjElim (proof : Ref) (side : Side)
  | implElim (premise implication : Ref)
  | implIntro (label : Label) (proof : Ref)
  | disjIntro (proof : Ref) (other : Formula Atom) (side : Side)
  | disjElim (disjunction leftCase : Ref) (leftLabel : Label) (rightCase : Ref)
      (rightLabel : Label)
  deriving DecidableEq, Repr

namespace Inference

variable {Ref Ref' Label Label' Atom Atom' : Type}

def rule : Inference Ref Label Atom → String
  | .suppose _ _ => "suppose"
  | .conjIntro _ _ => "conj_intro"
  | .conjElim _ _ => "conj_elim"
  | .implElim _ _ => "impl_elim"
  | .implIntro _ _ => "impl_intro"
  | .disjIntro _ _ _ => "disj_intro"
  | .disjElim _ _ _ _ _ => "disj_elim"

/-- The references to premises, in the order of the rule. -/
def refs : Inference Ref Label Atom → List Ref
  | .suppose _ _ => []
  | .conjIntro left right => [left, right]
  | .conjElim proof _ => [proof]
  | .implElim premise implication => [premise, implication]
  | .implIntro _ proof => [proof]
  | .disjIntro proof _ _ => [proof]
  | .disjElim disjunction leftCase _ rightCase _ => [disjunction, leftCase, rightCase]

def formulas : Inference Ref Label Atom → List (Formula Atom)
  | .suppose formula _ => [formula]
  | .disjIntro _ other _ => [other]
  | _ => []

/-- Resolve the references in the order of the rule, as long as none of them fails. -/
def resolve {Error : Type} (find : Ref → Except Error Ref') :
    Inference Ref Label Atom → Except Error (Inference Ref' Label Atom)
  | .suppose formula label => return .suppose formula label
  | .conjIntro left right => return .conjIntro (← find left) (← find right)
  | .conjElim proof side => return .conjElim (← find proof) side
  | .implElim premise implication => return .implElim (← find premise) (← find implication)
  | .implIntro label proof => return .implIntro label (← find proof)
  | .disjIntro proof other side => return .disjIntro (← find proof) other side
  | .disjElim disjunction leftCase leftLabel rightCase rightLabel =>
      return .disjElim (← find disjunction) (← find leftCase) leftLabel (← find rightCase)
        rightLabel

def map (mapRef : Ref → Ref') (mapLabel : Label → Label')
    (mapFormula : Formula Atom → Formula Atom') :
    Inference Ref Label Atom → Inference Ref' Label' Atom'
  | .suppose formula label => .suppose (mapFormula formula) (mapLabel label)
  | .conjIntro left right => .conjIntro (mapRef left) (mapRef right)
  | .conjElim proof side => .conjElim (mapRef proof) side
  | .implElim premise implication => .implElim (mapRef premise) (mapRef implication)
  | .implIntro label proof => .implIntro (mapLabel label) (mapRef proof)
  | .disjIntro proof other side => .disjIntro (mapRef proof) (mapFormula other) side
  | .disjElim disjunction leftCase leftLabel rightCase rightLabel =>
      .disjElim (mapRef disjunction) (mapRef leftCase) (mapLabel leftLabel) (mapRef rightCase)
        (mapLabel rightLabel)

def apply [BEq Label] [BEq Atom] [ReflBEq Atom] :
    Inference (Proof Label Atom) Label Atom → Proof.Result Label Atom
  | .suppose formula label => .ok (.suppose formula label)
  | .conjIntro left right => left.conjIntro right
  | .conjElim proof side => proof.conjElim side
  | .implElim premise implication => premise.implElim implication
  | .implIntro label proof => proof.implIntro label
  | .disjIntro proof other side => .ok (proof.disjIntro other side)
  | .disjElim disjunction leftCase leftLabel rightCase rightLabel =>
      disjunction.disjElim leftCase leftLabel rightCase rightLabel

end Inference

/-- An inference whose result later steps refer to by the step's id. -/
structure Step (Label Atom : Type) where
  id : Text
  inference : Inference Text Label Atom
  deriving DecidableEq, Repr

structure Script (Label Atom : Type) where
  name : Text
  goal : Formula Atom
  steps : List (Step Label Atom)
  deriving DecidableEq, Repr

variable {Label Label' Atom Atom' : Type}

def Step.refs (s : Step Label Atom) : List Text := s.inference.refs

def Step.rule (s : Step Label Atom) : String := s.inference.rule

def Step.map (mapId : Text → Text) (mapLabel : Label → Label')
    (mapFormula : Formula Atom → Formula Atom') (s : Step Label Atom) : Step Label' Atom' :=
  ⟨mapId s.id, s.inference.map mapId mapLabel mapFormula⟩

def Script.map (mapId : Text → Text) (mapLabel : Label → Label')
    (mapFormula : Formula Atom → Formula Atom') (s : Script Label Atom) : Script Label' Atom' :=
  ⟨s.name, mapFormula s.goal, s.steps.map (Step.map mapId mapLabel mapFormula)⟩

def Script.formulas (s : Script Label Atom) : List (Formula Atom) :=
  s.goal :: s.steps.flatMap fun step => step.inference.formulas

inductive Script.Invalid where
  | noSteps (name : Text)
  | duplicateId (index : Nat) (id : Text)
  | notEarlier (index : Nat) (id ref : Text)
  deriving DecidableEq, Repr

def Script.Invalid.message : Script.Invalid → Text
  | .noSteps name => "Script '" ++ name ++ "' has no steps"
  | .duplicateId index id => s!"steps[{index}]: duplicate step id '" ++ id ++ "'"
  | .notEarlier index id ref =>
      s!"steps[{index}] ('" ++ id ++ "'): refers to '" ++ ref ++ "', which is not an earlier step"

/-- Check the steps from an index on, given the ids of the steps before. -/
def validateFrom (index : Nat) (seen : List Text) :
    List (Step Label Atom) → Except Script.Invalid Unit
  | [] => .ok ()
  | step :: rest =>
      if seen.contains step.id then .error (.duplicateId index step.id)
      else
        match step.refs.find? fun ref => !seen.contains ref with
        | some ref => .error (.notEarlier index step.id ref)
        | none => validateFrom (index + 1) (step.id :: seen) rest

/-- Accept a script that has steps, with different ids, each of which refers to earlier ones only.
-/
def Script.validate (s : Script Label Atom) : Except Script.Invalid Unit :=
  if s.steps.isEmpty then .error (.noSteps s.name) else validateFrom 0 [] s.steps

end Deduction
