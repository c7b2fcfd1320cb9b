import Deduction.Log
import Deduction.Script.Basic

/-!
Replaying scripts: every step goes through the rules of inference, and the last proof has to show
the goal. A script holds no proofs, so nothing about it can forge one.
-/

namespace Deduction

inductive StepError (Label Atom : Type) where
  | unknownRef (ref : Text)
  | rule (error : RuleError Label Atom)
  deriving DecidableEq, Repr

section

variable {Label Atom : Type} [BEq Label] [BEq Atom] [ReflBEq Atom]

def Step.apply (s : Step Label Atom) (proofs : Text → Option (Proof Label Atom)) :
    Except (StepError Label Atom) (Proof Label Atom) := do
  let inference ← s.inference.resolve fun ref =>
    match proofs ref with
    | some p => .ok p
    | none => .error (.unknownRef ref)
  match inference.apply with
  | .ok p => return p
  | .error e => throw (.rule e)

/-- The steps that yield proofs, in order, and the step that fails after them. -/
structure Trace (Label Atom : Type) [BEq Label] where
  done : List (Step Label Atom × Proof Label Atom)
  stopped : Option (Step Label Atom × StepError Label Atom)

/-- Run steps one after another, given the proofs of the steps before. -/
def Trace.from (proofs : List (Text × Proof Label Atom)) :
    List (Step Label Atom) → Trace Label Atom
  | [] => ⟨[], none⟩
  | step :: rest =>
      match step.apply fun ref => Ordered.find? ref proofs with
      | .error e => ⟨[], some (step, e)⟩
      | .ok p =>
          let later := Trace.from (Ordered.put step.id p proofs) rest
          ⟨(step, p) :: later.done, later.stopped⟩

def Script.trace (s : Script Label Atom) : Trace Label Atom := Trace.from [] s.steps

/-- Where a replay stops: at a step, or when the last proof does not show the goal. -/
inductive Failure (Label Atom : Type) where
  | step (step : Step Label Atom) (error : RuleError Label Atom)
  | goal (error : RuleError Label Atom)
  deriving DecidableEq, Repr

omit [BEq Label] [BEq Atom] [ReflBEq Atom] in
def Failure.stepId? : Failure Label Atom → Option Text
  | .step s _ => some s.id
  | .goal _ => none

omit [BEq Label] [BEq Atom] [ReflBEq Atom] in
def Failure.rule : Failure Label Atom → String
  | .step s _ => s.rule
  | .goal _ => "shows"

omit [BEq Label] [BEq Atom] [ReflBEq Atom] in
def Failure.error : Failure Label Atom → RuleError Label Atom
  | .step _ error => error
  | .goal error => error

inductive ReplayError where
  | invalid (reason : Script.Invalid)
  | unknownRef (ref : Text)
  deriving DecidableEq, Repr

/-- A proof of the goal, or where the derivation fails. -/
abbrev Verdict (Label Atom : Type) [BEq Label] := Except (Failure Label Atom) (Proof Label Atom)

/-- Run every step and check that the last proof shows the goal. -/
def Script.replay (s : Script Label Atom) : Except ReplayError (Verdict Label Atom) :=
  match s.validate with
  | .error reason => .error (.invalid reason)
  | .ok () =>
      match s.trace.stopped, s.trace.done.getLast? with
      | some (_, .unknownRef ref), _ => .error (.unknownRef ref)
      | some (step, .rule e), _ => .ok (.error (.step step e))
      | none, none => .error (.invalid (.noSteps s.name))
      | none, some (_, p) =>
          match p.shows s.goal with
          | .ok p => .ok (.ok p)
          | .error e => .ok (.error (.goal e))

/-! ### Log entries -/

variable [LabelText Label] [AtomText Atom]

def replaySource : String := "natded.script"

omit [LabelText Label] [AtomText Atom] [BEq Atom] [ReflBEq Atom] in
def stepEntry (name : Text) (step : Step Label Atom) (p : Proof Label Atom) : LogEntry :=
  ⟨.debug, replaySource,
    s!"Script {Text.quoted name}: step {Text.quoted step.id} ({step.rule}) ok, "
      ++ s!"{p.assumptions.size} open assumption(s)"⟩

omit [BEq Label] [BEq Atom] [ReflBEq Atom] in
def failureEntry (name : Text) : Failure Label Atom → LogEntry
  | .step step e =>
      ⟨.warning, replaySource,
        s!"Script {Text.quoted name}: step {Text.quoted step.id} ({step.rule}) failed: "
          ++ e.message⟩
  | .goal e =>
      ⟨.warning, replaySource,
        s!"Script {Text.quoted name}: final proof does not show the goal: " ++ e.message⟩

/-- The entries of a replay: one for every proof, and one for a failure that can be told. -/
def Script.replayLog [Limits] (s : Script Label Atom) : List LogEntry :=
  match s.replay with
  | .error (.invalid _) => []
  | .error (.unknownRef _) => steps
  | .ok (.ok _) => steps
  | .ok (.error failure) =>
      steps ++ if failure.error.tooDeep then [] else [failureEntry s.name failure]
where
  steps : List LogEntry := s.trace.done.map fun (step, p) => stepEntry s.name step p

end

end Deduction
