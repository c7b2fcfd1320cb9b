import Deduction.Script.Basic
import Deduction.Workbench.Key
import Deduction.Workbench.Term

/-!
What tells the objects on a workbench apart when their contents are equal.

Proofs and assumption sets have numbers. Terms that were written have numbers at their leaves, and
terms that rules put together have one of their own.
-/

namespace Deduction.Workbench

/-- How a term came about: it was written, or is a part of what was written, or a rule joined two
others. -/
inductive Assembly where
  | written
  | joined (id : Nat) (lhs rhs : Assembly)

namespace Assembly

def lhs : Assembly → Assembly
  | .written => .written
  | .joined _ lhs _ => lhs

def rhs : Assembly → Assembly
  | .written => .written
  | .joined _ _ rhs => rhs

/-- Whether terms that came about so are one object. -/
def identical : Assembly → Term → Assembly → Term → Bool
  | .joined i _ _, _, .joined j _ _, _ => i == j
  | .written, s, .written, t => Formula.shared s t
  | _, _, _, _ => false

/-- How the conclusion of an inference comes about. The number is for a new object. -/
def ofInference (id : Nat) : Inference Assembly Key Leaf → Assembly
  | .suppose _ _ => .written
  | .conjIntro left right => .joined id left right
  | .conjElim proof .left => proof.lhs
  | .conjElim proof .right => proof.rhs
  | .implElim _ implication => implication.rhs
  | .implIntro _ proof => .joined id .written proof
  | .disjIntro proof _ .left => .joined id proof .written
  | .disjIntro proof _ .right => .joined id .written proof
  | .disjElim _ leftCase _ _ _ => leftCase

end Assembly

/-- The numbers of a proof and of its assumption set, and how its conclusion came about. -/
structure Marks where
  id : Nat
  setId : Nat
  conclusion : Assembly

structure Premise where
  marks : Marks
  proof : Proof Key Leaf

/-- The number of the assumption set that an inference passes on as it is. -/
def passedSet? : Inference Premise Key Leaf → Option Nat
  | .conjElim p _ => some p.marks.setId
  | .disjIntro p _ _ => some p.marks.setId
  | _ => none

/-- The origin of all values that are one object wherever they occur. -/
def commonOrigin : Origin := ⟨0, 0⟩

/-- Whether a value is one object wherever it is written: nothing, a truth value, a small integer,
or a text with one letter of the basic alphabets or none. -/
def isCommon : Json → Bool
  | .null => true
  | .bool _ => true
  | .int value => -5 ≤ value && value ≤ 256
  | .str text =>
      match text.points with
      | [] => true
      | [p] => p.code < 256
      | _ => false
  | _ => false

end Deduction.Workbench
