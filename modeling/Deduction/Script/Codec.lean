import Deduction.Formula.Codec
import Deduction.Json.Reader
import Deduction.Json.Writer
import Deduction.Script.Basic

/-!
Scripts as Json texts.

Wherever a script holds a formula, the text may give it as an object or in infix form.
-/

namespace Deduction

/-- Why a Json text or value is no script. Places are written as in `steps[2]`. -/
inductive FormatError where
  | invalidJson (error : Json.ReadError)
  | notAScript (value : Json)
  | stepsNotAList
  | notAnObject (place : String) (value : Json)
  | missingField (place field : String)
  | formulaText (place field : String) (error : Formula.ParseError)
  | formulaObject (place field : String) (error : Formula.DecodeError)
  | notAFormula (place field : String) (value : Json)
  | notALabel (place field : String) (value : Json)
  | notAStepId (place field : String) (value : Json)
  | notASide (place field : String) (value : Json)
  | unknownRule (place : String) (value : Json)
  | invalid (reason : Script.Invalid)

def FormatError.message : FormatError → Text
  | .invalidJson error => "Invalid JSON: " ++ error.message
  | .notAScript value => "Expected a script object, got " ++ value.typeName
  | .stepsNotAList => "script.steps: expected a list"
  | .notAnObject place value => place ++ ": expected an object, got " ++ value.typeName
  | .missingField place field => s!"{place}: missing field '{field}'"
  | .formulaText place field error => s!"{place}.{field}: {error.message}"
  | .formulaObject place field .tooDeep =>
      s!"{place}.{field}: " ++ Formula.DecodeError.message .tooDeep
  | .formulaObject place field error =>
      s!"{place}.{field}: malformed formula (" ++ error.message ++ ")"
  | .notAFormula place field value =>
      s!"{place}.{field}: expected a formula string or object, got {value.typeName}"
  | .notALabel place field value =>
      s!"{place}.{field}: labels must be integers or strings, got {value.describe}"
  | .notAStepId place field value =>
      s!"{place}.{field}: expected a step id, got {value.describe}"
  | .notASide place field value =>
      s!"{place}.{field}: expected 'left' or 'right', got {value.describe}"
  | .unknownRule place value => s!"{place}: unknown rule {value.describe}"
  | .invalid reason => reason.message

/-- Whether an error quotes a value that goes too deep for a message. -/
def FormatError.tooDeep [Limits] : FormatError → Bool
  | .notALabel _ field value => Limits.quoting field < value.depth
  | .notAStepId _ field value => Limits.quoting field < value.depth
  | .notASide _ field value => Limits.quoting field < value.depth
  | .unknownRule _ value => Limits.quoting "rule" < value.depth
  | _ => false

/-- The fields of the object that stands at a place of a script. -/
structure Fields where
  place : String
  fields : List (Text × Json)

namespace Fields

def value (o : Fields) (field : String) : Except FormatError Json :=
  match Ordered.find? (field : Text) o.fields with
  | some value => .ok value
  | none => .error (.missingField o.place field)

def formula [Limits] (o : Fields) (field : String) : Except FormatError (Formula String) := do
  match ← o.value field with
  | .str text =>
      match Formula.parseText text with
      | .ok f => return f
      | .error e => throw (.formulaText o.place field e)
  | .obj fields =>
      match Formula.ofJson (.obj fields) with
      | .ok f => return f
      | .error e => throw (.formulaObject o.place field e)
  | other => throw (.notAFormula o.place field other)

def label (o : Fields) (field : String) : Except FormatError Label := do
  match ← o.value field with
  | .int value => return .number value
  | .str text => return .name text
  | other => throw (.notALabel o.place field other)

def stepId (o : Fields) (field : String) : Except FormatError Text := do
  match ← o.value field with
  | .str id => return id
  | other => throw (.notAStepId o.place field other)

def side (o : Fields) (field : String) : Except FormatError Side := do
  match ← o.value field with
  | .str (.plain "left") => return .left
  | .str (.plain "right") => return .right
  | other => throw (.notASide o.place field other)

def inference [Limits] (o : Fields) : Except FormatError (Inference Text Label String) := do
  match ← o.value "rule" with
  | .str (.plain "suppose") => return .suppose (← o.formula "formula") (← o.label "label")
  | .str (.plain "conj_intro") => return .conjIntro (← o.stepId "left") (← o.stepId "right")
  | .str (.plain "conj_elim") => return .conjElim (← o.stepId "proof") (← o.side "side")
  | .str (.plain "impl_elim") => return .implElim (← o.stepId "premise") (← o.stepId "implication")
  | .str (.plain "impl_intro") => return .implIntro (← o.label "label") (← o.stepId "proof")
  | .str (.plain "disj_intro") =>
      return .disjIntro (← o.stepId "proof") (← o.formula "other") (← o.side "side")
  | .str (.plain "disj_elim") =>
      return .disjElim (← o.stepId "disjunction") (← o.stepId "left_case")
        (← o.label "left_label") (← o.stepId "right_case") (← o.label "right_label")
  | other => throw (.unknownRule o.place other)

end Fields

/-! ### Steps -/

def Label.toJson : Label → Json
  | .number value => .int value
  | .name text => .str text

def Side.name : Side → String
  | .left => "left"
  | .right => "right"

def Inference.fields : Inference Text Label String → List (Text × Json)
  | .suppose formula label => [("formula", formula.toJson), ("label", label.toJson)]
  | .conjIntro left right => [("left", .str left), ("right", .str right)]
  | .conjElim proof side => [("proof", .str proof), ("side", .str side.name)]
  | .implElim premise implication =>
      [("premise", .str premise), ("implication", .str implication)]
  | .implIntro label proof => [("label", label.toJson), ("proof", .str proof)]
  | .disjIntro proof other side =>
      [("proof", .str proof), ("other", other.toJson), ("side", .str side.name)]
  | .disjElim disjunction leftCase leftLabel rightCase rightLabel =>
      [("disjunction", .str disjunction), ("left_case", .str leftCase),
        ("left_label", leftLabel.toJson), ("right_case", .str rightCase),
        ("right_label", rightLabel.toJson)]

def Step.toJson (s : Step Label String) : Json :=
  .obj (("id", .str s.id) :: ("rule", .str s.rule) :: s.inference.fields)

def Step.ofJson [Limits] (place : String) : Json → Except FormatError (Step Label String)
  | .obj fields => do
      let o : Fields := ⟨place, fields⟩
      return { id := ← o.stepId "id", inference := ← o.inference }
  | other => throw (.notAnObject place other)

/-! ### Scripts -/

def Script.toJson (s : Script Label String) : Json :=
  .obj [("name", .str s.name), ("goal", s.goal.toJson), ("steps", .arr (s.steps.map Step.toJson))]

def stepsOfJson [Limits] (index : Nat) : List Json → Except FormatError (List (Step Label String))
  | [] => return []
  | value :: rest => do
      let step ← Step.ofJson s!"steps[{index}]" value
      let steps ← stepsOfJson (index + 1) rest
      return step :: steps

/-- Why a script cannot be loaded: there is none, or it holds an integer that is too long, or a
value that goes too deep for a text of it. -/
inductive LoadError where
  | format (error : FormatError)
  | tooManyDigits (digits : Nat)
  | tooDeep

/-- Errors of the format are told, unless they go too deep for that. -/
def LoadError.told [Limits] {α : Type} (result : Except FormatError α) : Except LoadError α :=
  result.mapError fun e => if e.tooDeep then .tooDeep else .format e

/-- The name of a script is the text of any value. -/
def Script.nameOf [Limits] (fields : List (Text × Json)) : Except LoadError Text :=
  match Ordered.find? ("name" : Text) fields with
  | some value =>
      if Limits.quoting "name" < value.depth then .error .tooDeep else .ok value.plainText
  | none => .ok "unnamed"

def Script.ofJson [Limits] : Json → Except LoadError (Script Label String)
  | .obj fields => do
      let o : Fields := ⟨"script", fields⟩
      match ← LoadError.told (o.value "steps") with
      | .arr items =>
          let name ← Script.nameOf fields
          let goal ← LoadError.told (o.formula "goal")
          let steps ← LoadError.told (stepsOfJson 0 items)
          let script : Script Label String := { name, goal, steps }
          match script.validate with
          | .ok () => return script
          | .error reason => throw (.format (.invalid reason))
      | _ => throw (.format .stepsNotAList)
  | other => throw (.format (.notAScript other))

def LoadError.message : LoadError → Text
  | .format error => error.message
  | .tooManyDigits digits => (Json.ReadError.tooManyDigits digits).message
  | .tooDeep => "maximum recursion depth exceeded"

def Script.load [Limits] (text : Text) : Except LoadError (Script Label String) :=
  match Json.read Limits.reading text.points with
  | .error (.tooManyDigits digits) => .error (.tooManyDigits digits)
  | .error e => .error (.format (.invalidJson e))
  | .ok value => Script.ofJson value

def Script.dump (s : Script Label String) : Text := s.toJson.pretty

/-! ### Texts in messages -/

def Side.describe : Side → String
  | .left => "<Side.LEFT: 'left'>"
  | .right => "<Side.RIGHT: 'right'>"

def Step.describe (s : Step Label String) : String :=
  match s.inference with
  | .suppose formula label =>
      write "Suppose" [("formula", formula.describe), ("label", label.describe)]
  | .conjIntro left right =>
      write "ConjIntro" [("left", Text.quoted left), ("right", Text.quoted right)]
  | .conjElim proof side =>
      write "ConjElim" [("proof", Text.quoted proof), ("side", side.describe)]
  | .implElim premise implication =>
      write "ImplElim"
        [("premise", Text.quoted premise), ("implication", Text.quoted implication)]
  | .implIntro label proof =>
      write "ImplIntro" [("label", label.describe), ("proof", Text.quoted proof)]
  | .disjIntro proof other side =>
      write "DisjIntro"
        [("proof", Text.quoted proof), ("other", other.describe), ("side", side.describe)]
  | .disjElim disjunction leftCase leftLabel rightCase rightLabel =>
      write "DisjElim"
        [("disjunction", Text.quoted disjunction), ("left_case", Text.quoted leftCase),
          ("left_label", leftLabel.describe), ("right_case", Text.quoted rightCase),
          ("right_label", rightLabel.describe)]
where
  write (constructor : String) (fields : List (String × String)) : String :=
    let all := ("id", Text.quoted s.id) :: fields
    constructor ++ "(" ++ ", ".intercalate (all.map fun f => f.1 ++ "=" ++ f.2) ++ ")"

end Deduction
