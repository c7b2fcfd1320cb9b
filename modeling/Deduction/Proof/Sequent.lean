import Deduction.Formula.Printer
import Deduction.Nesting
import Deduction.Proof.Basic

/-!
Proofs as one-line sequents: the open assumptions, a turnstile and the conclusion.
-/

namespace Deduction

/-- Hypotheses under the plain texts of their labels, and a conclusion. -/
structure Sequent (Atom : Type) where
  hypotheses : List (Text × Formula Atom)
  conclusion : Formula Atom
  deriving DecidableEq, Repr

/-- The sequent of a proof, its hypotheses in increasing order of their labels' texts. -/
def Proof.sequent {Label Atom : Type} [BEq Label] [LabelText Label] (p : Proof Label Atom) :
    Sequent Atom where
  hypotheses :=
    (p.assumptions.entries.map fun (label, f) => (LabelText.plain label, f)).mergeSort
      fun a b => !decide (b.1 < a.1)
  conclusion := p.conclusion

namespace Sequent

variable {Atom Other : Type}

/-- Change the formulas from left to right, as long as none of them fails. -/
def traverse {Error : Type} (change : Formula Atom → Except Error (Formula Other))
    (s : Sequent Atom) : Except Error (Sequent Other) := do
  let hypotheses ← s.hypotheses.mapM fun (label, f) => do return (label, ← change f)
  let conclusion ← change s.conclusion
  return { hypotheses, conclusion }

def tooDeep [Limits] (s : Sequent Atom) : Bool :=
  s.hypotheses.any (fun h => h.2.exceeds Limits.rendering) ||
    s.conclusion.exceeds Limits.rendering

def render [Wording Atom] (symbols : Symbols) (s : Sequent Atom) : Text :=
  let hypotheses := Text.intercalate ", " <|
    s.hypotheses.map fun (label, f) => label ++ ": " ++ Wording.toText (f.render symbols)
  let conclusion := symbols.turnstile ++ " " ++ Wording.toText (s.conclusion.render symbols)
  if hypotheses.isEmpty then conclusion else hypotheses ++ " " ++ conclusion

end Sequent

end Deduction
