import Deduction.Scope
import Deduction.Script.Codec
import Deduction.Workbench.Key
import Deduction.Workbench.Term

/-!
What can go wrong on a workbench.
-/

namespace Deduction.Workbench

inductive SealError where
  | forged
  | extended
  | final (typeName : String)
  | transferred
  | immutable (typeName : String)
  /-- A field of a record that is neither set nor taken away. -/
  | frozen (verb field : String)
  /-- A field that is computed, and so is neither set nor taken away. -/
  | computed (typeName field missing : String)
  /-- A scope, which holds a lock. -/
  | locked
  deriving DecidableEq, Repr

def SealError.message : SealError → String
  | .forged => "Proof values can only be produced by kernel rules"
  | .extended => "Proof cannot be subclassed"
  | .final typeName => s!"type '{typeName}' is not an acceptable base type"
  | .transferred => "Proof values cannot be serialized; replay the derivation instead"
  | .immutable typeName => typeName ++ " is immutable"
  | .frozen verb field => s!"cannot {verb} field {Text.quoted field}"
  | .computed typeName field missing =>
      s!"property '{field}' of '{typeName}' object has no {missing}"
  | .locked => "cannot pickle '_thread.lock' object"

/-! ### Faults -/

inductive Fault where
  | noRegister (name : String)
  | parse (error : Formula.ParseError)
  | unreadable (error : Json.ReadError)
  | format (error : FormatError)
  | rule (error : RuleError Key Leaf)
  | scope (error : ScopeError Key)
  | term (error : TermError)
  | tampered (error : SealError)
  | missingKey (key : String)
  | expected (wanted found : String)
  | notANumber (text : String)
  | notIterable (typeName : String)
  | notAContainer (typeName : String)
  | notSubscriptable (typeName : String)
  /-- A label in the place of a position in a text or a list. -/
  | notAnIndex (container : Json) (typeName : String)
  | outOfRange (container : Json)
  /-- A position that no machine word holds. -/
  | indexTooLarge
  | notAPart (typeName : String)
  | notAPair (index length : Nat)
  | notASequence (index : Nat)
  | noAttribute (typeName member : String)
  | wrongCount (error : WrongCount)
  | raised (message : String)

def Fault.message : Fault → Text
  | .noRegister name => name
  | .parse error => error.message
  | .unreadable error => error.message
  | .format error => error.message
  | .rule error => error.message
  | .scope error => error.message
  | .term error => error.message
  | .tampered error => error.message
  | .missingKey key => key
  | .expected wanted found => s!"Expected {wanted}, got {found}"
  | .notANumber text => s!"could not convert string to float: {Text.quoted text}"
  | .notIterable typeName => s!"'{typeName}' object is not iterable"
  | .notAContainer typeName => s!"argument of type '{typeName}' is not iterable"
  | .notSubscriptable typeName => s!"'{typeName}' object is not subscriptable"
  | .notAnIndex (.str _) typeName => s!"string indices must be integers, not '{typeName}'"
  | .notAnIndex container typeName =>
      s!"{container.typeName} indices must be integers or slices, not {typeName}"
  | .outOfRange (.str _) => "string index out of range"
  | .outOfRange container => s!"{container.typeName} index out of range"
  | .indexTooLarge => "cannot fit 'int' into an index-sized integer"
  | .notAPart typeName => s!"'in <string>' requires string as left operand, not {typeName}"
  | .notAPair index length =>
      s!"dictionary update sequence element #{index} has length {length}; 2 is required"
  | .notASequence index =>
      s!"cannot convert dictionary update sequence element #{index} to a sequence"
  | .noAttribute typeName member => s!"'{typeName}' object has no attribute '{member}'"
  | .wrongCount error => error.message
  | .raised message => message

end Deduction.Workbench
