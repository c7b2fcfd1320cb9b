import Deduction.Proof.Sequent
import Deduction.Script.Codec
import Deduction.Script.Comparison

/-!
Reports on checked scripts, for people and for other programs.
-/

namespace Deduction

structure Report where
  script : Text
  source : Option Text
  goal : String
  verdict : Verdict Label String

inductive CheckError where
  | tooDeep
  | replay (error : ReplayError)
  deriving DecidableEq, Repr

namespace Report

def isSuccess (r : Report) : Bool :=
  match r.verdict with
  | .ok _ => true
  | .error _ => false

def ofScript [Limits] (script : Script Label String) (source : Option Text) (ascii : Bool) :
    Except CheckError Report :=
  if script.goal.exceeds Limits.rendering then .error .tooDeep
  else
    let goal := script.goal.render (.select ascii)
    match script.replay with
    | .error e => .error (.replay e)
    | .ok verdict =>
        if script.written.stuckAfter?.isSome then .error .tooDeep
        else
          match verdict with
          | .ok p => .ok ⟨script.name, source, goal, .ok p⟩
          | .error failure =>
              if failure.error.tooDeep then .error .tooDeep
              else .ok ⟨script.name, source, goal, .error failure⟩

/-- The log of a check: nothing is replayed if the goal cannot be printed, and nothing is told of
the step at which the replay gets stuck. -/
def log [Limits] (script : Script Label String) : List LogEntry :=
  if script.goal.exceeds Limits.rendering then []
  else
    match script.written.stuckAfter? with
    | some done => script.replayLog.take done
    | none => script.replayLog

/-- Whether the conclusion of a proof is higher than the limit. -/
def exceeds (r : Report) (limit : Nat) : Bool :=
  match r.verdict with
  | .ok p => p.conclusion.exceeds limit
  | .error _ => false

/-- The place of a failure in a text report: a step without an id is not told from the final
check. -/
def location (failure : Failure Label String) : Text :=
  match failure.stepId? with
  | none => "final check"
  | some id => if id.isEmpty then "final check" else "step '" ++ id ++ "'"

/-- The name of the script, and the path unless it is empty. -/
def heading (r : Report) : Text :=
  match r.source with
  | none => r.script
  | some source => if source.isEmpty then r.script else r.script ++ " (" ++ source ++ ")"

def lines (r : Report) (ascii : Bool) : List Text :=
  r.heading :: match r.verdict with
    | .ok p => ["  ✓ Proved: " ++ p.sequent.render (.select ascii)]
    | .error failure =>
        ["  × Not proved: " ++ r.goal,
          s!"    - [{failure.error.kind}] " ++ location failure ++ s!" ({failure.rule}): "
            ++ failure.error.message]

def text (r : Report) (ascii : Bool) : Text := Text.intercalate "\n" (r.lines ascii)

def textOrNull : Option Text → Json
  | none => .null
  | some text => .str text

def toJson (r : Report) : Json :=
  let (success, conclusion, failure) : Bool × Json × Json := match r.verdict with
    | .ok p => (true, p.conclusion.toJson, .null)
    | .error failure =>
        (false, .null, .obj [
          ("step", textOrNull failure.stepId?),
          ("rule", .str failure.rule),
          ("error", .str failure.error.kind),
          ("message", .str failure.error.message)])
  .obj [
    ("script", .str r.script),
    ("source", textOrNull r.source),
    ("goal", .str r.goal),
    ("success", .bool success),
    ("conclusion", conclusion),
    ("failure", failure)]

end Report

end Deduction
