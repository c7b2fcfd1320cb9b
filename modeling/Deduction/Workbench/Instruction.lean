import Deduction.Workbench.Fault

/-!
Instructions for a workbench. They name registers and spell out their other arguments.
-/

namespace Deduction.Workbench

/-- A formula argument: texts are parsed, everything else is built without a check. -/
inductive FormulaArg where
  | text (source : Text)
  | var (name : Json)
  | conj (lhs rhs : FormulaArg)
  | disj (lhs rhs : FormulaArg)
  | impl (lhs rhs : FormulaArg)
  | value (json : Json)

def FormulaArg.eval [Limits] : FormulaArg → Except Fault (Formula Leaf.Content)
  | .text source =>
      match Formula.parseText source with
      | .ok f => .ok (Term.contentsOf f)
      | .error e => .error (.parse e)
  | .var name => return .var (.name name)
  | .conj lhs rhs => return .conj (← lhs.eval) (← rhs.eval)
  | .disj lhs rhs => return .disj (← lhs.eval) (← rhs.eval)
  | .impl lhs rhs => return .impl (← lhs.eval) (← rhs.eval)
  | .value json => return .var (.foreign json)

inductive LabelArg where
  | scalar (value : Json)
  /-- A double-precision number, given by its text. -/
  | real (text : String)
  | tuple (items : List LabelArg)
  /-- A list, whose items are taken as they are. -/
  | list (items : List Json)
  | labelOf (register : String)

inductive RefArg where
  | register (name : String)
  | member (name member : String)
  | value (value : Json)
  | formula (formula : FormulaArg)

inductive SideArg where
  | side (side : Side)
  | value (value : Json)

inductive Tampering where
  /-- Make a value of the same type without a rule. -/
  | construct
  /-- Fill a finished value with new contents. -/
  | refill
  /-- Make a type with rules of its own. -/
  | extend
  | assign (field : String)
  | erase (field : String)
  /-- Write a value out and read it back. -/
  | transfer
  | copy
  | deepCopy
  deriving DecidableEq, Repr

inductive Comparison where
  | eq
  | ne
  | lt
  | le
  | is
  | sameHash
  deriving DecidableEq, Repr

inductive Action where
  | suppose (formula : FormulaArg) (label : LabelArg)
  | conjIntro (p q : RefArg)
  | conjElim (p : RefArg) (side : SideArg)
  | disjIntro (p : RefArg) (other : FormulaArg) (side : SideArg)
  | implElim (p q : RefArg)
  | implIntro (label : LabelArg) (q : RefArg)
  | disjElim (r s : RefArg) (l₁ : LabelArg) (t : RefArg) (l₂ : LabelArg)
  | shows (p : RefArg) (expected : FormulaArg)
  | render (p : RefArg) (ascii : Bool)
  | describe (x : RefArg)
  | plain (x : RefArg)
  | compare (a b : RefArg) (comparison : Comparison)
  | set (items : List (LabelArg × FormulaArg))
  | empty
  | single (label : LabelArg) (formula : FormulaArg)
  | merge (a b : RefArg)
  | without (x : RefArg) (label : LabelArg)
  | get (x : RefArg) (label : LabelArg)
  | contains (x : RefArg) (label : LabelArg)
  | tamper (x : RefArg) (how : Tampering)
  | fresh
  /-- Apply a step, given by its Json text, to the proofs in the registers. -/
  | applyStep (step : Text)
  | newScope
  | push (scope : String) (formula : FormulaArg)
  | discharge (scope : String) (hypothesis : Option RefArg) (p : RefArg)
  | release (scope : String) (hypothesis : RefArg)
  | raise (message : String)

def Action.alwaysLeaves : Action → Bool
  | .raise _ => true
  | _ => false

/-- A single action, whose result may be stored in a register, or a block under a hypothesis. An
action may be watched: the scope in a register is noted as the action leaves it. A fault is noted
and the program goes on, unless the instruction lets faults propagate. -/
inductive Instruction where
  | act (action : Action) (store watched : Option String) (propagate : Bool)
  | assume (scope : String) (formula : FormulaArg) (store : String) (propagate : Bool)
      (body : List Instruction)

end Deduction.Workbench
